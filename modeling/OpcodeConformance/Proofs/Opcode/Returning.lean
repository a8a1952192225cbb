import OpcodeConformance.Proofs.Contract.HostCall
import OpcodeConformance.Proofs.Contract.Staging
import OpcodeConformance.Proofs.Opcode.Program

namespace OpcodeConformance

open Opcode Wasm

namespace Opcode

variable {p : Program HostState} {m : Memory} {sp start len : UInt32} {e : Environment}
  {raised : List Effect} {effect : Bytes → Effect} {depth room i : Nat}

theorem callWithin_stager (hp : p.shown? = some 0)
    (hi : p.imports[i]? = some (Interface.stager effect))
    (h : start.toNat + len.toNat ≤ m.size) :
    p.callWithin (depth + 1) room i [.i32 start, .i32 len]
        ⟨[m], [.i32 sp], ⟨e, raised, true⟩⟩ =
      .ends ([], ⟨[m], [.i32 sp],
        ⟨e, raised ++ [effect (m.slice start.toNat len.toNat)], true⟩⟩) :=
  callWithin_host hp hi (Interface.run_stager_of_le effect rfl rfl h)

theorem callWithin_stager_of_lt (hp : p.shown? = some 0)
    (hi : p.imports[i]? = some (Interface.stager effect))
    (h : m.size < start.toNat + len.toNat) :
    ∃ reason, p.callWithin (depth + 1) room i [.i32 start, .i32 len]
        ⟨[m], [.i32 sp], ⟨e, raised, true⟩⟩ =
      .traps (.host reason) ⟨[m], [.i32 sp], ⟨e, raised, true⟩⟩ := by
  have hrun : ∃ reason, (Interface.stager effect).run [.i32 start, .i32 len]
      ⟨some m, ⟨e, raised, true⟩⟩ = .error reason := Interface.run_stager_of_lt effect rfl h
  obtain ⟨reason, hreason⟩ := hrun
  exact ⟨reason, callWithin_host_of_error hp hi hreason⟩

end Opcode

namespace Returning

section Run

variable {η : Type} {p : Program η} {call : Nat → List Value → Store η → Call η} {m : Memory}
  {host host' : η} {sp : UInt32}

/-- The host is called when the range is known. -/
theorem run_body (hoffset : sp.toNat + 4 ≤ m.size) (hlen : (sp - 32).toNat + 4 ≤ m.size) :
    run p call body ⟨⟨[m], [.i32 sp], host⟩, [], []⟩ =
      run p call (.op (.call 0) (Opcode.lower 64))
        ⟨⟨[m], [.i32 sp], host⟩, [], [.i32 (low m (sp - 32)), .i32 (address m sp)]⟩ := by
  unfold body
  simp only [Code.ops_cons, Code.ops_nil]
  rw [run_globalGet rfl, run_load (load?_of_le hoffset), Access.loaded, run_const, run_numeric rfl,
    run_globalGet rfl, run_const, run_numeric rfl, run_load (load?_of_le hlen), Access.loaded]
  rfl

variable (hoffset : sp.toNat + 4 ≤ m.size) (hlen : (sp - 32).toNat + 4 ≤ m.size)
  (htype : p.functionType? 0 = some ⟨[.i32, .i32], []⟩)
include hoffset hlen htype

theorem call_function
    (hstage : call 0 [.i32 (address m sp), .i32 (low m (sp - 32))] ⟨[m], [.i32 sp], host⟩ =
      .ends ([], ⟨[m], [.i32 sp], host'⟩)) :
    function.call p call [] ⟨[m], [.i32 sp], host⟩ =
      .ends ([.i32 (sp - 64)], ⟨[m], [.i32 (sp - 64)], host'⟩) := by
  have hbody : run p call function.body ⟨⟨[m], [.i32 sp], host⟩,
      [] ++ function.locals.map Value.zero, []⟩ = _ :=
    (run_body hoffset hlen).trans ((run_call htype hstage).trans
      (Opcode.run_lower p call 64 sp [m] host' [] []))
  exact Function.call_of_ends hbody

theorem call_function_of_traps {trap : Trap} {t : Store η}
    (hstage : call 0 [.i32 (address m sp), .i32 (low m (sp - 32))] ⟨[m], [.i32 sp], host⟩ =
      .traps trap t) :
    function.call p call [] ⟨[m], [.i32 sp], host⟩ = .traps trap t :=
  Function.call_of_traps ((run_body hoffset hlen).trans (run_call_of_traps htype hstage))

end Run

abbrev program : Program HostState :=
  Opcode.program "RETURN" [stageImport, gasImport] [function] [Interface.stager .finish, charger]

variable {c : Contract} {e : Environment} {m : Memory} {sp : UInt32} {waiting : List Effect}

theorem call_return (hoffset : sp.toNat + 4 ≤ m.size) (hlen : (sp - 32).toNat + 4 ≤ m.size)
    (h : (address m sp).toNat + (low m (sp - 32)).toNat ≤ m.size) :
    (session c program e m sp waiting).call "RETURN" [] =
      (.ok (Value.i32 (sp - 64)).signed?, session c program e m (sp - 64)
        (waiting ++ [.finish (m.slice (address m sp).toNat (low m (sp - 32)).toNat)])) :=
  shipped_return.call (call_function hoffset hlen rfl (callWithin_stager shown?_program rfl h))

/-- A range that is not inside the memory is refused, and nothing has happened. -/
theorem call_return_of_lt (hoffset : sp.toNat + 4 ≤ m.size) (hlen : (sp - 32).toNat + 4 ≤ m.size)
    (h : m.size < (address m sp).toNat + (low m (sp - 32)).toNat) :
    ∃ reason, (session c program e m sp waiting).call "RETURN" [] =
      (.error (.trap reason), session c program e m sp waiting) := by
  have hstager : ∃ reason, callFrom "RETURN" [stageImport, gasImport] [function]
      [Interface.stager .finish, charger] function 0 [.i32 (address m sp), .i32 (low m (sp - 32))]
      ⟨[m], [.i32 sp], ⟨e, [], true⟩⟩ =
      .traps (.host reason) ⟨[m], [.i32 sp], ⟨e, [], true⟩⟩ :=
    callWithin_stager_of_lt shown?_program rfl h
  obtain ⟨reason, hstage⟩ := hstager
  have hcall : (session c program e m sp waiting).call "RETURN" [] = _ :=
    shipped_return.call_of_traps_at (call_function_of_traps hoffset hlen rfl hstage)
  exact ⟨_, by rw [hcall, List.append_nil]⟩

variable {p : Program HostState}

/-- What a range of the memory holds at the call is what the contract answers with from the next
settling on, also if the memory is written to before that. If the range is not inside the memory,
the call traps and changes nothing. -/
theorem call_return_stages (hp : Runs "RETURN" p) (hm : m.size ≤ 2 ^ 31) {s off len : Nat}
    (hs : 32 ≤ s) (hsize : s + 32 ≤ m.size) (hoff : Bytes.littleValue (m.slice s 32) = off)
    (hlen : Bytes.littleValue (m.slice (s - 32) 32) = len)
    (hofflt : off < 2 ^ 32 - Settings.defaultMemoryBase) (hlenlt : len < 2 ^ 32) :
    let start := Settings.defaultMemoryBase + off
    let before := session c p e m (.ofNat s) waiting
    let after := session c p e m (.ofInt (s - 64)) (waiting ++ [.finish (m.slice start len)])
    (start + len ≤ m.size →
      before.call "RETURN" [] = (.ok (some (Int64.ofInt (s - 64))), after) ∧
      ∀ us vs, .settle ∉ us → (after.used us).settle.1 = .ok () →
        Contract.Unstaged (after.raisedBy (us ++ .settle :: vs)) →
        (after.used (us ++ .settle :: vs)).response = ⟨some (m.slice start len), false⟩) ∧
    (m.size < start + len →
      ∃ reason, before.call "RETURN" [] = (.error (.trap reason), before)) := by
  intro start before after
  obtain rfl := shipped_return.runs_iff.mp hp
  have hbase : Settings.defaultMemoryBase = 33832 := rfl
  have hlt : s < 2 ^ 32 := by omega
  have hsp : (UInt32.ofNat s).toNat = s := UInt32.toNat_ofNat_of_lt' hlt
  have hsource : (UInt32.ofNat s - 32).toNat = s - 32 := toNat_ofNat_sub hs (by omega)
  have hstart : (address m (.ofNat s)).toNat = Settings.defaultMemoryBase + off := by
    rw [toNat_address_ofNat (by omega) (by omega), hoff]
  have hcount : (low m (.ofNat s - 32)).toNat = len := by
    rw [toNat_low, hsource, hlen]
    exact Nat.mod_eq_of_lt hlenlt
  have hword : (UInt32.ofNat s).toNat + 4 ≤ m.size := by rw [hsp]; omega
  have hwords : (UInt32.ofNat s - 32).toNat + 4 ≤ m.size := by rw [hsource]; omega
  refine ⟨fun hfits => ⟨?_, fun us vs hus hsettled hraised => ?_⟩, fun hoverrun => ?_⟩
  · have hcall : before.call "RETURN" [] = _ :=
      call_return hword hwords (by rw [hstart, hcount]; exact hfits)
    have hpointer : UInt32.ofNat s - 64 = .ofInt (s - 64) := ofNat_sub_ofNat s 64
    rwa [hstart, hcount, hpointer, signed?_ofInt (by omega) (by omega)] at hcall
  · exact Contract.response_used_of_staged rfl rfl hus hsettled hraised
  · exact call_return_of_lt hword hwords (by rw [hstart, hcount]; exact hoverrun)

/-- A memory with a stack of two words, a number of bytes and an offset, and with three bytes where
the offset seven stands for. -/
def ranged (off len : Nat) : Memory :=
  (((Memory.zeros memorySize).overlay 0 (Bytes.little 32 len)).overlay 32
    (Bytes.little 32 off)).overlay 33839 [1, 2, 3]

def sessionAt (off len : Nat) (sp : Int) (waiting : List Effect) : Contract :=
  session (.new (.compiled program.module) .empty .zero) program emptyEnvironment (ranged off len)
    (.ofInt sp) waiting

/-- Three bytes that are written over before they are settled and again afterwards; and a number of
bytes that is not in the range of signed numbers. -/
theorem call_return_stages_overwritten :
    (sessionAt 7 3 32 []).call "RETURN" [] =
        (.ok (some (-32)), sessionAt 7 3 (-32) [.finish [1, 2, 3]]) ∧
      ((sessionAt 7 3 (-32) [.finish [1, 2, 3]]).used
        ([.write 33839 [9]] ++ .settle :: [.write 33840 [8]])).response =
          ⟨some [1, 2, 3], false⟩ ∧
      ∃ reason, (sessionAt 7 (2 ^ 31) 32 []).call "RETURN" [] =
        (.error (.trap reason), sessionAt 7 (2 ^ 31) 32 []) := by
  have hruns : Runs "RETURN" program := shipped_return.runs_iff.mpr rfl
  obtain ⟨hcall, hresponse⟩ := (@call_return_stages (.new (.compiled program.module) .empty .zero)
    emptyEnvironment (ranged 7 3) [] program hruns (by decide) 32 7 3 (by decide) (by decide)
    (by decide +kernel) (by decide +kernel) (by decide) (by decide)).1 (by decide)
  have hrefused := (@call_return_stages (.new (.compiled program.module) .empty .zero)
    emptyEnvironment (ranged 7 (2 ^ 31)) [] program hruns (by decide) 32 7 (2 ^ 31) (by decide)
    (by decide) (by decide +kernel) (by decide +kernel) (by decide) (by decide)).2 (by decide)
  have hpayload : (ranged 7 3).slice (Settings.defaultMemoryBase + 7) 3 = [1, 2, 3] := by
    decide +kernel
  rw [hpayload] at hcall hresponse
  have hwritten : (sessionAt 7 3 (-32) [.finish [1, 2, 3]]).used [.write 33839 [9]] = _ :=
    congrArg Prod.snd (write_session shown?_program (by decide))
  have hsettled : ((sessionAt 7 3 (-32) [.finish [1, 2, 3]]).used [.write 33839 [9]]).settle.1 =
      .ok () := by
    rw [hwritten]
    rfl
  -- writes raise nothing
  have hraised : Contract.Unstaged ((sessionAt 7 3 (-32) [.finish [1, 2, 3]]).raisedBy
      ([.write 33839 [9]] ++ .settle :: [.write 33840 [8]])) := 
    fun _ hx => absurd hx List.not_mem_nil
  exact ⟨hcall, hresponse _ _ (by decide) hsettled hraised, hrefused⟩

end Returning

end OpcodeConformance
