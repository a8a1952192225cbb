import OpcodeConformance.Proofs.Contract.HostCall
import OpcodeConformance.Proofs.Opcode.Program

namespace OpcodeConformance.Pushing

open Wasm Opcode

section Run

variable {η : Type} {p : Program η} {call : Nat → List Value → Store η → Call η}
  {m m' : Memory} {globals : List Value} {host host' : η} {top offset n : Nat}

theorem run_fill (as : List Access) {len : Nat} (h : top + offset + len ≤ m.size)
    (hm : m.size < 2 ^ 32) (hlen : (as.map Access.width).sum = len) (next : Code) :
    run p call (.ops (fill offset as) next)
        ⟨⟨[m], globals, host⟩, [.i32 (.ofNat top)], []⟩ =
      run p call next ⟨⟨[m.overlay (top + offset) (List.replicate len 0)], globals, host⟩,
        [.i32 (.ofNat top)], []⟩ := by
  subst hlen
  induction as generalizing m offset with
  | nil => rfl
  | cons a rest ih =>
    rw [List.map_cons, List.sum_cons] at h
    have hzeros : Store.storedBytes? a (a.loaded 0) = some (List.replicate a.width 0) := by
      rw [← Bytes.littleValue_replicate_zero a.width]
      exact storedBytes?_loaded List.length_replicate
    unfold fill
    simp only [Code.ops_append, Code.ops_cons, Code.ops_nil]
    rw [run_localGet rfl, run_const, run_store_of_le hzeros rfl (by omega) (by simp; omega),
      ih (by rw [Memory.size_overlay]; exact hm) (by rw [Memory.size_overlay]; omega)]
    -- the zeros of the first store, and those behind them
    rw [List.map_cons, List.sum_cons, ← List.replicate_append_replicate, Memory.overlay_append,
      List.length_replicate, Nat.add_assoc]

theorem call_function {write : List Op} {sp : UInt32}
    (htype : p.functionType? 0 = some ⟨[.i64], []⟩)
    (hgas : call 0 [.i64 2] ⟨[m], [.i32 sp], host⟩ = .ends ([], ⟨[m], [.i32 sp], host'⟩))
    (hwrite : ∀ next, run p call (.ops write next)
        ⟨⟨[m], [.i32 sp], host'⟩, [.i32 (sp + 32)], []⟩ =
      run p call next ⟨⟨[m'], [.i32 sp], host'⟩, [.i32 (sp + 32)], []⟩) :
    (function write).call p call [] ⟨[m], [.i32 sp], host⟩ =
      .ends ([.i32 (sp + 32)], ⟨[m'], [.i32 (sp + 32)], host'⟩) := by
  have hbody : run p call (function write).body ⟨⟨[m], [.i32 sp], host⟩,
      [] ++ (function write).locals.map Value.zero, []⟩ =
      .ends (.next, ⟨⟨[m'], [.i32 (sp + 32)], host'⟩, [.i32 (sp + 32)], [.i32 (sp + 32)]⟩) := by
    change run p call (body write) ⟨⟨[m], [.i32 sp], host⟩, [.i32 0], []⟩ = _
    unfold body
    simp only [Code.ops_cons, Code.ops_nil]
    rw [run_const, run_call_unit htype hgas, run_globalGet rfl, run_const, run_numeric rfl,
      run_localSet]
    exact (hwrite _).trans rfl
  exact Function.call_of_ends hbody

variable (htop : top + 32 ≤ m.size) (hm : m.size < 2 ^ 32)
include htop hm

theorem run_writeSize (htype : p.functionType? 1 = some ⟨[], [.i32]⟩) (hn : n < 2 ^ 32)
    (hsize : call 1 [] ⟨[m], globals, host⟩ = .ends ([.i32 (.ofNat n)], ⟨[m], globals, host⟩))
    (next : Code) :
    run p call (.ops writeSize next) ⟨⟨[m], globals, host⟩, [.i32 (.ofNat top)], []⟩ =
      run p call next ⟨⟨[m.overlay top (Bytes.little 32 n)], globals, host⟩,
        [.i32 (.ofNat top)], []⟩ := by
  have hextended : Numeric.i64ExtendI32U.apply [.i32 (.ofNat n), .i32 (.ofNat top)] =
      .ok [.i64 (.ofNat n), .i32 (.ofNat top)] := Numeric.apply_i64ExtendI32U hn
  have hstored : Store.storedBytes? .word64 (.i64 (.ofNat n)) = some (Bytes.little 8 n) := by
    rw [Store.storedBytes?, UInt64.toNat_ofNat_of_lt' (Nat.lt_trans hn (by decide))]
  -- the length has no more than four bytes
  have hhigh : n / 256 ^ 8 = 0 := Nat.div_eq_of_lt (Nat.lt_trans hn (by decide))
  have hword : Bytes.little 32 n = Bytes.little 8 n ++ List.replicate 24 0 := by
    rw [Bytes.little_add 8 24 n, hhigh, Bytes.little_zero]
  have hsize' : (m.overlay top (Bytes.little 8 n)).size = m.size := Memory.size_overlay m _ _
  have hrest : top + 8 + 24 ≤ (m.overlay top (Bytes.little 8 n)).size := by omega
  unfold writeSize
  simp only [Code.ops_append, Code.ops_cons, Code.ops_nil]
  rw [run_localGet rfl, run_call htype hsize]
  change run p call _ ⟨_, _, [.i32 (.ofNat n), .i32 (.ofNat top)]⟩ = _
  rw [run_numeric hextended, run_store_of_le hstored rfl (by omega) (by simp; omega)]
  rw [hword, Memory.overlay_append, Bytes.length_little]
  exact run_fill [.word64, .word64, .word64] hrest (by omega) rfl next

theorem run_writeCaller (htype : p.functionType? 1 = some ⟨[.i32], []⟩)
    (htype' : p.functionType? 2 = some ⟨[.i32], []⟩)
    (hcaller : call 1 [.i32 (.ofNat top)] ⟨[m], globals, host⟩ =
      .ends ([], ⟨[m'], globals, host⟩)) (hsize : m'.size = m.size)
    (hreverse : call 2 [.i32 (.ofNat top)] ⟨[m'], globals, host⟩ =
      .ends ([], ⟨[m'.swapEnds top 20 10], globals, host⟩)) (next : Code) :
    run p call (.ops writeCaller next) ⟨⟨[m], globals, host⟩, [.i32 (.ofNat top)], []⟩ =
      run p call next
        ⟨⟨[(m'.swapEnds top 20 10).overlay (top + 20) (List.replicate 12 0)], globals, host⟩,
          [.i32 (.ofNat top)], []⟩ := by
  have hsize' : (m'.swapEnds top 20 10).size = m.size :=
    (Memory.size_swapEnds m' top 20 10).trans hsize
  have hrest : top + 20 + 12 ≤ (m'.swapEnds top 20 10).size := by omega
  unfold writeCaller
  simp only [Code.ops_append, Code.ops_cons, Code.ops_nil]
  rw [run_localGet rfl, run_call_unit htype hcaller, run_localGet rfl,
    run_call_unit htype' hreverse]
  exact run_fill [.word32, .word64] hrest (by omega) rfl next

end Run

/-- An address that has been reversed, with zeros behind it, is a word. -/
theorem slice_reversed (m : Memory) (top : Nat) {bs : Bytes} (hbs : bs.length = 20) :
    let m' := ((m.overlay top bs).swapEnds top 20 10).overlay (top + 20) (List.replicate 12 0)
    (m'.slice top 32).reverse = List.replicate 12 0 ++ bs ∧ m'.AgreeOutside m top 32 := by
  intro m'
  have hwritten : (m.overlay top bs).slice top 20 = bs := by
    have h := Memory.slice_overlay_self m top bs
    rwa [hbs] at h
  have hlow : m'.slice top 20 = bs.reverse := by
    have hswapped := Memory.slice_swapEnds (m.overlay top bs) top 10
    rw [hwritten] at hswapped
    exact (Memory.slice_overlay_of_disjoint (.inl (Nat.le_refl _))).trans hswapped
  have hhigh : m'.slice (top + 20) 12 = List.replicate 12 0 :=
    Memory.slice_overlay_self _ (top + 20) (List.replicate 12 0)
  refine ⟨?_, ?_⟩
  · rw [Memory.slice_add m' top 20 12, hlow, hhigh, List.reverse_append, List.reverse_reverse,
      List.reverse_replicate]
  · have hfill : m'.AgreeOutside ((m.overlay top bs).swapEnds top 20 10) top 32 :=
      Memory.agreeOutside_overlay _ (Nat.le_add_right _ _) (by simp)
    have hswap : ((m.overlay top bs).swapEnds top 20 10).AgreeOutside (m.overlay top bs) top 32 :=
      (Memory.agreeOutside_swapEnds _ (by decide)).mono (by decide)
    have hwrite : (m.overlay top bs).AgreeOutside m top 32 :=
      Memory.agreeOutside_overlay m (Nat.le_refl _) (by rw [hbs]; omega)
    exact (hfill.trans hswap).trans hwrite

abbrev sizeProgram : Program HostState :=
  Opcode.program "CALLDATASIZE" [gasImport, sizeImport] [function writeSize] [charger, sizer]

abbrev callerProgram : Program HostState :=
  Opcode.program "CALLER" [gasImport, callerImport] [Reversal.function, function writeCaller]
    [charger, Interface.writer fun e => e.caller.bytes]

/-- A call of an opcode pushes a word, given with its most significant byte first: the word stands
above the stack, where the pointer points to now, every byte outside of it is as before, and a charge
of two waits. -/
def Pushes (c : Contract) (p : Program HostState) (e : Environment) (m : Memory) (s : Int)
    (waiting : List Effect) (op : String) (word : Bytes) : Prop :=
  ∃ m', (session c p e m (.ofInt s) waiting).call op [] =
      (.ok (some (Int64.ofInt (s + 32))),
        session c p e m' (.ofInt (s + 32)) (waiting ++ [.useGas 2])) ∧
    (m'.slice (s + 32).toNat 32).reverse = word ∧ m'.AgreeOutside m (s + 32).toNat 32

variable {c : Contract} {e : Environment} {m : Memory} {s : Int} {waiting : List Effect}

theorem pushes_of_run {op : String} {imports : List (String × FunctionType)}
    {functions : List Function} {hosts : List (HostFunction HostState)} {write : List Op}
    {word : Bytes} (h : Shipped op imports functions hosts (function write)) {m' : Memory}
    (hm : m.size ≤ 2 ^ 31) (hs : -32 ≤ s) (hsize : s + 64 ≤ m.size)
    (htype : (Opcode.program op imports functions hosts).functionType? 0 = some ⟨[.i64], []⟩)
    (hgas : hosts[0]? = some charger)
    (hwrite : ∀ next, run (Opcode.program op imports functions hosts)
        (callFrom op imports functions hosts (function write)) (.ops write next)
        ⟨⟨[m], [.i32 (.ofInt s)], ⟨e, [.useGas 2], true⟩⟩, [.i32 (.ofNat (s + 32).toNat)], []⟩ =
      run (Opcode.program op imports functions hosts)
        (callFrom op imports functions hosts (function write)) next
        ⟨⟨[m'], [.i32 (.ofInt s)], ⟨e, [.useGas 2], true⟩⟩, [.i32 (.ofNat (s + 32).toNat)], []⟩)
    (hword : (m'.slice (s + 32).toNat 32).reverse = word)
    (hagree : m'.AgreeOutside m (s + 32).toNat 32) :
    Pushes c (Opcode.program op imports functions hosts) e m s waiting op word := by
  have hcharged : callFrom op imports functions hosts (function write) 0 [.i64 2]
      ⟨[m], [.i32 (.ofInt s)], ⟨e, [], true⟩⟩ =
      .ends ([], ⟨[m], [.i32 (.ofInt s)], ⟨e, [.useGas 2], true⟩⟩) :=
    callWithin_charger shown?_program hgas (by decide)
  have hmoved : UInt32.ofInt s + 32 = .ofInt (s + 32) := (UInt32.ofInt_add s 32).symm
  rw [ofNat_toNat (by omega), ← hmoved] at hwrite
  have hcall : (session c (Opcode.program op imports functions hosts) e m (.ofInt s) waiting).call
      op [] = _ := h.call (call_function htype hcharged hwrite)
  rw [hmoved] at hcall
  refine ⟨m', hcall.trans ?_, hword, hagree⟩
  exact congrArg (fun v => (Except.ok v, _)) (signed?_ofInt (by omega) (by omega))

theorem pushes_size (hm : m.size ≤ 2 ^ 31) (hs : -32 ≤ s) (hsize : s + 64 ≤ m.size)
    (hdata : e.callData.length < 2 ^ 32) :
    Pushes c sizeProgram e m s waiting "CALLDATASIZE" (Bytes.big 32 e.callData.length) := by
  have htop : (s + 32).toNat + 32 ≤ m.size := by omega
  have hlength := Bytes.length_little 32 e.callData.length
  have hword := Memory.slice_overlay_self m (s + 32).toNat (Bytes.little 32 e.callData.length)
  rw [hlength] at hword
  refine pushes_of_run shipped_callDataSize hm hs hsize rfl rfl
    (run_writeSize htop (by omega) rfl hdata ?_) (congrArg List.reverse hword)
    (Memory.agreeOutside_overlay m (Nat.le_refl _) (by rw [hlength]))
  exact callWithin_host shown?_program rfl rfl

/-- The function that reverses addresses is called from the one for the opcode. -/
theorem callFrom_reversal {m : Memory} {top : Nat} {globals : List Value} {host : HostState}
    (htop : top + 20 ≤ m.size) (hm : m.size < 2 ^ 32) :
    callFrom "CALLER" [gasImport, callerImport] [Reversal.function, function writeCaller]
        [charger, Interface.writer fun e => e.caller.bytes] (function writeCaller) 2
        [.i32 (.ofNat top)] ⟨[m], globals, host⟩ =
      .ends ([], ⟨[m.swapEnds top 20 10], globals, host⟩) := by
  have hfirst : ([Reversal.function, function writeCaller] ++ [setter])[0]? =
      some Reversal.function := rfl
  exact (callWithin_function shipped_caller.linked hfirst (by decide +kernel) _ _).trans
    (Reversal.call_function _ _ globals host htop hm)

theorem pushes_caller (hm : m.size ≤ 2 ^ 31) (hs : -32 ≤ s) (hsize : s + 64 ≤ m.size) :
    Pushes c callerProgram e m s waiting "CALLER" (List.replicate 12 0 ++ e.caller.bytes) := by
  have htop : (s + 32).toNat + 32 ≤ m.size := by omega
  have hlt : (s + 32).toNat < 2 ^ 32 := by omega
  have hstart : (UInt32.ofNat (s + 32).toNat).toNat = (s + 32).toNat :=
    UInt32.toNat_ofNat_of_lt' hlt
  have hwritten : (Interface.writer fun e => e.caller.bytes).run [.i32 (.ofNat (s + 32).toNat)]
      ⟨some m, ⟨e, [.useGas 2], true⟩⟩ = .ok ([],
        ⟨some (m.overlay (s + 32).toNat e.caller.bytes), ⟨e, [.useGas 2], true⟩⟩) := by
    have hrun := Interface.run_writer_of_le (·.caller) (v := ⟨some m, ⟨e, [.useGas 2], true⟩⟩) rfl
      (by rw [hstart]; omega)
    rwa [hstart] at hrun
  have hsize' : (m.overlay (s + 32).toNat e.caller.bytes).size = m.size := Memory.size_overlay m _ _
  obtain ⟨hword, hagree⟩ := slice_reversed m (s + 32).toNat e.caller.length_bytes
  refine pushes_of_run shipped_caller hm hs hsize rfl rfl
    (run_writeCaller htop (by omega) rfl rfl ?_ hsize'
      (callFrom_reversal (by omega) (by omega))) hword hagree
  exact callWithin_host shown?_program rfl hwritten

variable {p q : Program HostState}

/-- Calls of the opcodes push the address of the caller with zeros in front, and the length of the
call data. -/
theorem call_pushes_environment (hp : Runs "CALLER" p) (hq : Runs "CALLDATASIZE" q)
    (hm : m.size ≤ 2 ^ 31) (hs : -32 ≤ s) (hsize : s + 64 ≤ m.size) :
    Pushes c p e m s waiting "CALLER" (List.replicate 12 0 ++ e.caller.bytes) ∧
      (e.callData.length < 2 ^ 32 →
        Pushes c q e m s waiting "CALLDATASIZE" (Bytes.big 32 e.callData.length)) := by
  obtain rfl := shipped_caller.runs_iff.mp hp
  obtain rfl := shipped_callDataSize.runs_iff.mp hq
  exact ⟨pushes_caller hm hs hsize, pushes_size hm hs hsize⟩

/-- A message from an address that is not the same backwards, with three hundred bytes. -/
def environment : Environment :=
  { emptyEnvironment with
    caller := ⟨(List.range' 1 20).map UInt8.ofNat, rfl⟩
    callData := List.replicate 300 7 }

/-- The lowest words of a memory without any zero. -/
theorem call_pushes_environment_stale :
    let m := (Memory.zeros 64).overlay 0 (List.replicate 64 255)
    let c : Contract := .new (.compiled callerProgram.module) .empty .zero
    Pushes c callerProgram environment m (-32) [] "CALLER"
        (List.replicate 12 0 ++ (List.range' 1 20).map UInt8.ofNat) ∧
      Pushes c sizeProgram environment m (-32) [] "CALLDATASIZE"
        (List.replicate 30 0 ++ [1, 44]) := by
  intro m c
  have hsize : m.size = 64 := Memory.size_overlay _ _ _
  obtain ⟨hcaller, hlength⟩ := call_pushes_environment (c := c) (e := environment) (m := m)
    (shipped_caller.runs_iff.mpr rfl) (shipped_callDataSize.runs_iff.mpr rfl)
    (by rw [hsize]; decide) (by decide : -32 ≤ (-32 : Int)) (by rw [hsize]; decide)
  have hcount : environment.callData.length = 300 := List.length_replicate
  rw [hcount] at hlength
  exact ⟨hcaller, hlength (by decide)⟩

end OpcodeConformance.Pushing
