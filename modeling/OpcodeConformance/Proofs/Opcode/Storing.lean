import OpcodeConformance.Proofs.Opcode.Program

namespace OpcodeConformance

open Opcode Wasm

namespace Storing

/-- The memory behind a copy of eight bytes, at an offset from both addresses. -/
def copyLimb (target source : Nat) (m : Memory) (offset : Nat) : Memory :=
  m.overlay (target + offset) (m.slice (source + offset) 8)

def copyLimbs (target source : Nat) (m : Memory) (offsets : List Nat) : Memory :=
  offsets.foldl (copyLimb target source) m

def limbs (k : Nat) : List Nat := (List.range k).map (8 * ·)

theorem limbs_succ (k : Nat) : limbs (k + 1) = limbs k ++ [8 * k] := by
  rw [limbs, limbs, List.range_succ, List.map_append, List.map_singleton]

theorem le_of_mem_limbs {k offset : Nat} (h : offset ∈ limbs k) : offset + 8 ≤ 8 * k := by
  obtain ⟨i, hi, rfl⟩ := List.mem_map.mp h
  have hlt := List.mem_range.mp hi
  omega

@[simp] theorem size_copyLimb (target source : Nat) (m : Memory) (offset : Nat) :
    (copyLimb target source m offset).size = m.size := Memory.size_overlay m _ _

/-- Copies change nothing outside of the range that they are made to. -/
theorem agreeOutside_copyLimbs {target source len : Nat} {offsets : List Nat}
    (h : ∀ offset ∈ offsets, offset + 8 ≤ len) (m : Memory) :
    (copyLimbs target source m offsets).AgreeOutside m target len := by
  induction offsets generalizing m with
  | nil => exact .refl m target len
  | cons offset offsets ih =>
    have hlimb : (copyLimb target source m offset).AgreeOutside m target len := by
      have hoffset := h offset (.head _)
      exact Memory.agreeOutside_overlay m (Nat.le_add_right _ _)
        (by rw [Memory.length_slice]; omega)
    exact (ih (fun o ho => h o (.tail _ ho)) _).trans hlimb

/-- Copies from the first limb to the last are a copy of all limbs at once, unless the target begins
inside the source. -/
theorem copyLimbs_limbs {target source : Nat} (m : Memory) {k : Nat}
    (h : source + 8 * k ≤ target ∨ target ≤ source) :
    copyLimbs target source m (limbs k) = m.overlay target (m.slice source (8 * k)) := by
  induction k with
  | zero => rfl
  | succ k ih =>
    have hlast : copyLimbs target source m (limbs (k + 1)) =
        copyLimb target source (copyLimbs target source m (limbs k)) (8 * k) := by
      rw [copyLimbs, limbs_succ, List.foldl_append]
      rfl
    -- the next limb of the source has not been written so far
    have hsource : (m.overlay target (m.slice source (8 * k))).slice (source + 8 * k) 8 =
        m.slice (source + 8 * k) 8 :=
      Memory.slice_overlay_of_disjoint (by rw [Memory.length_slice]; omega)
    rw [hlast, ih (by omega), copyLimb, hsource, Nat.mul_succ, Memory.slice_add,
      Memory.overlay_append, Memory.length_slice]

def copies (offsets : List Nat) (next : Code) : Code := offsets.foldr copy next

section Run

variable {η : Type} {p : Program η} {call : Nat → List Value → Store η → Call η} {m : Memory}
  {globals stack : List Value} {host host' : η} {target source sp : UInt32} {offset : Nat}
  {offsets : List Nat} {next : Code}

theorem run_copy (htarget : target.toNat + offset + 8 ≤ m.size)
    (hsource : source.toNat + offset + 8 ≤ m.size) :
    run p call (copy offset next)
        ⟨⟨[m], globals, host⟩, [.i32 target, .i32 source], stack⟩ =
      run p call next ⟨⟨[copyLimb target.toNat source.toNat m offset], globals, host⟩,
        [.i32 target, .i32 source], stack⟩ := by
  have hlength : (m.slice (source.toNat + offset) Access.word64.width).length =
      Access.word64.width := Memory.length_slice m _ _
  unfold copy
  simp only [Code.ops_cons, Code.ops_nil]
  rw [run_localGet rfl, run_localGet rfl, run_load (load?_of_le hsource),
    run_store (storedBytes?_loaded hlength) (write?_of_le (by rw [hlength]; exact htarget))]
  rfl

/-- If code goes on behind a copy, both places are inside the memory. -/
theorem le_of_run_copy {x : Flow × Frame η}
    (h : run p call (copy offset next)
      ⟨⟨[m], globals, host⟩, [.i32 target, .i32 source], stack⟩ = .ends x) :
    target.toNat + offset + 8 ≤ m.size ∧ source.toNat + offset + 8 ≤ m.size := by
  have hlength : (m.slice (source.toNat + offset) Access.word64.width).length =
      Access.word64.width := Memory.length_slice m _ _
  unfold copy at h
  simp only [Code.ops_cons, Code.ops_nil] at h
  rw [run_localGet rfl, run_localGet rfl] at h
  have hsource := le_of_run_load rfl h
  rw [run_load (load?_of_le hsource)] at h
  have htarget := le_of_run_store (storedBytes?_loaded hlength) rfl h
  rw [hlength] at htarget
  exact ⟨htarget, hsource⟩

theorem run_copies
    (h : ∀ offset ∈ offsets, target.toNat + offset + 8 ≤ m.size ∧
      source.toNat + offset + 8 ≤ m.size) :
    run p call (copies offsets next)
        ⟨⟨[m], globals, host⟩, [.i32 target, .i32 source], stack⟩ =
      run p call next ⟨⟨[copyLimbs target.toNat source.toNat m offsets], globals, host⟩,
        [.i32 target, .i32 source], stack⟩ := by
  induction offsets generalizing m with
  | nil => rfl
  | cons offset offsets ih =>
    obtain ⟨htarget, hsource⟩ := h offset (.head _)
    change run p call (copy offset (copies offsets next)) _ = _
    rw [run_copy htarget hsource, ih fun o ho => by simpa using h o (.tail _ ho)]
    rfl

theorem le_of_run_copies {x : Flow × Frame η}
    (h : run p call (copies offsets next)
      ⟨⟨[m], globals, host⟩, [.i32 target, .i32 source], stack⟩ = .ends x) :
    ∀ offset ∈ offsets, target.toNat + offset + 8 ≤ m.size ∧
      source.toNat + offset + 8 ≤ m.size := by
  induction offsets generalizing m with
  | nil => exact fun _ ho => absurd ho List.not_mem_nil
  | cons offset offsets ih =>
    change run p call (copy offset (copies offsets next)) _ = _ at h
    obtain ⟨htarget, hsource⟩ := le_of_run_copy h
    rw [run_copy htarget hsource] at h
    intro o ho
    rcases List.mem_cons.mp ho with rfl | ho
    · exact ⟨htarget, hsource⟩
    · simpa using ih h o ho

/-- The memory has room for the offset, for the word, and for the word where it is stored. -/
structure Fits (m : Memory) (sp : UInt32) : Prop where
  offset : sp.toNat + 4 ≤ m.size
  word : (sp - 32).toNat + 32 ≤ m.size
  target : (address m sp).toNat + 32 ≤ m.size

theorem run_body (hoffset : sp.toNat + 4 ≤ m.size)
    (htype : p.functionType? 0 = some ⟨[.i64], []⟩)
    (hgas : call 0 [.i64 3] ⟨[m], [.i32 sp], host⟩ = .ends ([], ⟨[m], [.i32 sp], host'⟩)) :
    run p call body ⟨⟨[m], [.i32 sp], host⟩, [.i32 0, .i32 0], []⟩ =
      run p call (copies (limbs 4) (Opcode.lower 64))
        ⟨⟨[m], [.i32 sp], host'⟩, [.i32 (address m sp), .i32 (sp - 32)], []⟩ := by
  unfold body
  simp only [Code.ops_cons, Code.ops_nil]
  rw [run_const, run_call_unit htype hgas, run_globalGet rfl, run_load (load?_of_le hoffset),
    Access.loaded, run_const, run_numeric rfl, run_localSet, run_globalGet rfl, run_const,
    run_numeric rfl, run_localSet]
  rfl

theorem call_function (h : Fits m sp) (htype : p.functionType? 0 = some ⟨[.i64], []⟩)
    (hgas : call 0 [.i64 3] ⟨[m], [.i32 sp], host⟩ = .ends ([], ⟨[m], [.i32 sp], host'⟩)) :
    function.call p call [] ⟨[m], [.i32 sp], host⟩ =
      .ends ([.i32 (sp - 64)],
        ⟨[copyLimbs (address m sp).toNat (sp - 32).toNat m (limbs 4)], [.i32 (sp - 64)],
          host'⟩) := by
  have hlimbs : ∀ offset ∈ limbs 4, (address m sp).toNat + offset + 8 ≤ m.size ∧
      (sp - 32).toNat + offset + 8 ≤ m.size := by
    intro offset ho
    have hle := le_of_mem_limbs ho
    have hword := h.word
    have htarget := h.target
    omega
  have hbody : run p call function.body ⟨⟨[m], [.i32 sp], host⟩,
      [] ++ function.locals.map Value.zero, []⟩ = _ :=
    (run_body h.offset htype hgas).trans ((run_copies hlimbs).trans
      (Opcode.run_lower p call 64 sp _ host' _ []))
  exact Function.call_of_ends hbody

theorem fits_of_call_function (htype : p.functionType? 0 = some ⟨[.i64], []⟩)
    (hgas : call 0 [.i64 3] ⟨[m], [.i32 sp], host⟩ = .ends ([], ⟨[m], [.i32 sp], host'⟩))
    {r : List Value × Store η} (h : function.call p call [] ⟨[m], [.i32 sp], host⟩ = .ends r) :
    Fits m sp := by
  obtain ⟨x, hbody⟩ := Function.exists_run_of_call_ends h
  change run p call body ⟨⟨[m], [.i32 sp], host⟩, [.i32 0, .i32 0], []⟩ = .ends x at hbody
  have hoffset : sp.toNat + 4 ≤ m.size := by
    unfold body at hbody
    simp only [Code.ops_cons, Code.ops_nil] at hbody
    rw [run_const, run_call_unit htype hgas, run_globalGet rfl] at hbody
    exact le_of_run_load rfl hbody
  rw [run_body hoffset htype hgas] at hbody
  -- the last limb reaches as far as the words do
  obtain ⟨htarget, hword⟩ := le_of_run_copies hbody 24 (by decide)
  exact ⟨hoffset, hword, htarget⟩

end Run

section Call

abbrev program : Program HostState := Opcode.program "MSTORE" [gasImport] [function] [charger]

variable {c : Contract} {e : Environment} {m : Memory} {sp : UInt32} {waiting : List Effect}

theorem charges : callFrom "MSTORE" [gasImport] [function] [charger] function 0 [.i64 3]
    ⟨[m], [.i32 sp], ⟨e, [], true⟩⟩ = .ends ([], ⟨[m], [.i32 sp], ⟨e, [.useGas 3], true⟩⟩) :=
  callWithin_charger shown?_program rfl (by decide)

theorem call_mstore (h : Fits m sp) :
    (session c program e m sp waiting).call "MSTORE" [] =
      (.ok (Value.i32 (sp - 64)).signed?,
        session c program e (copyLimbs (address m sp).toNat (sp - 32).toNat m (limbs 4)) (sp - 64)
          (waiting ++ [.useGas 3])) :=
  shipped_mstore.call (call_function h rfl charges)

/-- A call that is answered has found room for all that it reads and writes. -/
theorem fits_of_call_mstore {value : Option Int64}
    (h : ((session c program e m sp waiting).call "MSTORE" []).1 = .ok value) : Fits m sp := by
  obtain ⟨r, hends⟩ := shipped_mstore.exists_ends_of_call_eq_ok h
  exact fits_of_call_function rfl charges hends

variable {p : Program HostState}

/-- Storing a word changes one word at most. It stands behind the base of the memory by the offset,
modulo two to the 32; below that it is the one that the offset names. -/
theorem call_mstore_confined (hp : Runs "MSTORE" p) {value : Option Int64}
    (hcall : ((session c p e m sp waiting).call "MSTORE" []).1 = .ok value) :
    let place := Settings.defaultMemoryBase + Bytes.littleValue (m.slice sp.toNat 32)
    ∃ m', (session c p e m sp waiting).call "MSTORE" [] =
        (.ok value, session c p e m' (sp - 64) (waiting ++ [.useGas 3])) ∧
      place % 2 ^ 32 + 32 ≤ m.size ∧ m'.AgreeOutside m (place % 2 ^ 32) 32 ∧
      (place < 2 ^ 32 → place + 32 ≤ m.size ∧ m'.AgreeOutside m place 32) := by
  intro place
  obtain rfl := shipped_mstore.runs_iff.mp hp
  have hfits := fits_of_call_mstore hcall
  have hplace : (address m sp).toNat = place % 2 ^ 32 := toNat_address m sp
  have htarget : place % 2 ^ 32 + 32 ≤ m.size := hplace ▸ hfits.target
  have hagree : (copyLimbs (address m sp).toNat (sp - 32).toNat m (limbs 4)).AgreeOutside m
      (place % 2 ^ 32) 32 := by
    rw [hplace]
    exact agreeOutside_copyLimbs (fun o ho => le_of_mem_limbs ho) m
  have hmstore : (session c program e m sp waiting).call "MSTORE" [] = _ := call_mstore hfits
  rw [hmstore] at hcall
  refine ⟨_, hcall ▸ hmstore, htarget, hagree, fun hlt => ?_⟩
  rw [Nat.mod_eq_of_lt hlt] at htarget hagree
  exact ⟨htarget, hagree⟩

/-- A stack of three words: an offset, the word that is stored there, and one below them. -/
def stackOf (offset : Nat) : Memory :=
  (((Memory.zeros memorySize).overlay 0 (Bytes.little 32 9)).overlay 32
    (Bytes.little 32 42)).overlay 64 (Bytes.little 32 offset)

def contract : Contract := .new (.compiled program.module) .empty .zero

theorem call_mstore_confined_odd :
    ∃ m', (session contract program emptyEnvironment (stackOf 7) 64 []).call "MSTORE" [] =
        (.ok (some 0), session contract program emptyEnvironment m' 0 [.useGas 3]) ∧
      33839 + 32 ≤ (stackOf 7).size ∧ m'.AgreeOutside (stackOf 7) 33839 32 := by
  have hplace : Settings.defaultMemoryBase +
      Bytes.littleValue ((stackOf 7).slice (64 : UInt32).toNat 32) = 33839 := by decide +kernel
  have hcall : ((session contract program emptyEnvironment (stackOf 7) 64 []).call
      "MSTORE" []).1 = .ok (some 0) := by
    rw [call_mstore ⟨by decide, by decide, by decide +kernel⟩]
    rfl
  obtain ⟨m', hmstore, -, -, hbelow⟩ :=
    call_mstore_confined (shipped_mstore.runs_iff.mpr rfl) hcall
  rw [hplace] at hbelow
  obtain ⟨htarget, hagree⟩ := hbelow (by decide)
  exact ⟨m', hmstore, htarget, hagree⟩

/-- An offset for which the sum with the base wraps around to zero: the word is stored over the
lowest word of the stack, though the place that the offset names is far behind the memory. -/
theorem call_mstore_overwrites_stack :
    let m := stackOf (2 ^ 32 - Settings.defaultMemoryBase)
    Runs "MSTORE" program ∧ m.size ≤ 2 ^ 31 ∧
      m.size < Settings.defaultMemoryBase + Bytes.littleValue (m.slice 64 32) ∧
      m.slice 0 32 = Bytes.little 32 9 ∧
      ∃ m', (session contract program emptyEnvironment m 64 []).call "MSTORE" [] =
          (.ok (some 0), session contract program emptyEnvironment m' 0 [.useGas 3]) ∧
        m'.slice 0 32 = Bytes.little 32 42 := by
  intro m
  have hfits : Fits m 64 := ⟨by decide, by decide, by decide +kernel⟩
  have hmstore : (session contract program emptyEnvironment m 64 []).call "MSTORE" [] = _ :=
    call_mstore hfits
  have htarget : (address m 64).toNat = 0 := by decide +kernel
  have hsource : ((64 : UInt32) - 32).toNat = 32 := rfl
  have hword : m.slice 32 32 = Bytes.little 32 42 := by decide +kernel
  rw [htarget, hsource, copyLimbs_limbs m (.inr (by decide)), hword] at hmstore
  refine ⟨shipped_mstore.runs_iff.mpr rfl, by decide, by decide +kernel, by decide +kernel, _,
    hmstore, ?_⟩
  exact Memory.slice_overlay_self m 0 (Bytes.little 32 42)

/-- Where the offset names a place inside the memory, the word stands there afterwards, and nothing
else has changed. -/
theorem call_mstore_stores (hp : Runs "MSTORE" p) {s : Nat} (hs : 32 ≤ s)
    (hbelow : s + 32 ≤ Settings.defaultMemoryBase) (hm : m.size ≤ 2 ^ 31)
    (hfits : Settings.defaultMemoryBase + Bytes.littleValue (m.slice s 32) + 32 ≤ m.size) :
    let place := Settings.defaultMemoryBase + Bytes.littleValue (m.slice s 32)
    ∃ m', (session c p e m (.ofNat s) waiting).call "MSTORE" [] =
        (.ok (some (Int64.ofInt (s - 64))),
          session c p e m' (.ofInt (s - 64)) (waiting ++ [.useGas 3])) ∧
      m'.slice place 32 = m.slice (s - 32) 32 ∧ m'.AgreeOutside m place 32 := by
  intro place
  obtain rfl := shipped_mstore.runs_iff.mp hp
  have hbase : Settings.defaultMemoryBase = 33832 := rfl
  have hlt : s < 2 ^ 32 := by omega
  have hsp : (UInt32.ofNat s).toNat = s := UInt32.toNat_ofNat_of_lt' hlt
  have hsource : (UInt32.ofNat s - 32).toNat = s - 32 := toNat_ofNat_sub hs (by omega)
  have hplace : (address m (.ofNat s)).toNat = place :=
    toNat_address_ofNat (by omega) (by omega)
  have hcall : (session c program e m (.ofNat s) waiting).call "MSTORE" [] = _ :=
    call_mstore ⟨by rw [hsp]; omega, by rw [hsource]; omega, by rw [hplace]; exact hfits⟩
  -- the stack ends below the memory that is written
  rw [hplace, hsource, copyLimbs_limbs m (.inl (by omega))] at hcall
  have hpointer : UInt32.ofNat s - 64 = .ofInt (s - 64) := ofNat_sub_ofNat s 64
  rw [hpointer, signed?_ofInt (by omega) (by omega)] at hcall
  refine ⟨_, hcall, ?_, Memory.agreeOutside_overlay m (Nat.le_refl _) (by simp)⟩
  have hword := Memory.slice_overlay_self m place (m.slice (s - 32) 32)
  rwa [Memory.length_slice] at hword

/-- A word that is stored behind the memory's base by an offset that is not a multiple of its
size. -/
theorem call_mstore_stores_odd :
    ∃ m', (session contract program emptyEnvironment (stackOf 7) (.ofNat 64) []).call "MSTORE" [] =
        (.ok (some 0), session contract program emptyEnvironment m' 0 [.useGas 3]) ∧
      m'.slice 33839 32 = Bytes.little 32 42 ∧ m'.AgreeOutside (stackOf 7) 33839 32 := by
  have hplace : Settings.defaultMemoryBase + Bytes.littleValue ((stackOf 7).slice 64 32) =
      33839 := by decide +kernel
  have hword : (stackOf 7).slice 32 32 = Bytes.little 32 42 := by decide +kernel
  obtain ⟨m', hcall, hstored, hagree⟩ := call_mstore_stores (c := contract)
    (e := emptyEnvironment) (m := stackOf 7) (shipped_mstore.runs_iff.mpr rfl)
    (by decide : 32 ≤ 64) (by decide) (by decide) (by rw [hplace]; decide)
  rw [hplace] at hstored hagree
  exact ⟨m', hcall, hstored.trans hword, hagree⟩

end Call

end Storing

end OpcodeConformance
