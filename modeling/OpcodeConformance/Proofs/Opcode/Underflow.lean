import OpcodeConformance.Proofs.Opcode.Addition.Session

namespace OpcodeConformance

open Wasm

variable {η : Type} (p : Program η) (call : Nat → List Value → Store η → Call η) {m : Memory}
  {sp : UInt32} {host host' : η}

namespace Addition

/-- The first limb is not added if the first word is outside the memory. -/
theorem run_limb_outside {a : UInt32} (h : m.size ≤ a.toNat) (globals : List Value) (host : η)
    (b : UInt32) (x s c : Value) :
    run p call limb ⟨⟨[m], globals, host⟩, [.i32 a, .i32 b, .i32 0, x, s, c], []⟩ =
      .traps .outOfBounds ⟨[m], globals, host⟩ := by
  have hadd : Numeric.i32Add.apply [.i32 0, .i32 a] = .ok [.i32 a] := by
    rw [Numeric.apply, UInt32.add_zero]
  unfold limb
  simp only [Code.ops_cons]
  rw [run_localGet rfl, run_const, run_numeric rfl, run_branchIf_ofBool, if_neg (by decide),
    run_localGet rfl, run_localGet rfl, run_numeric hadd]
  exact run_load_of_lt rfl (by simp [Access.width]; omega)

theorem call_function_outside (h : m.size ≤ (sp - 32).toNat)
    (htype : p.functionType? 0 = some ⟨[.i64], []⟩)
    (hgas : call 0 [.i64 3] ⟨[m], [.i32 sp], host⟩ = .ends ([], ⟨[m], [.i32 sp], host'⟩)) :
    function.call p call [] ⟨[m], [.i32 sp], host⟩ =
      .traps .outOfBounds ⟨[m], [.i32 sp], host'⟩ := by
  have hround := run_limb_outside p call h [.i32 sp] host' sp (.i64 0) (.i64 0) (.i64 0)
  have hbody : run p call body ⟨⟨[m], [.i32 sp], host⟩, function.locals.map Value.zero, []⟩ =
      .traps .outOfBounds ⟨[m], [.i32 sp], host'⟩ := by
    unfold body
    simp only [Code.ops_cons, Code.ops_nil]
    rw [run_const, run_call_unit htype hgas, run_globalGet rfl, run_const, run_numeric rfl,
      run_localSet, run_globalGet rfl, run_localSet, run_block, loop,
      Wasm.run_loop (skip_limb _ rfl)]
    change ((((iterate 0 (run p call limb) (greatestIterations - 1 + 1) _).leave 0 []).goOn
      _).leave 0 []).goOn _ = _
    rw [iterate_of_traps hround, Outcome.leave_traps, Outcome.goOn_traps, Outcome.leave_traps,
      Outcome.goOn_traps]
  exact Function.call_of_traps hbody

end Addition

namespace Storing

theorem call_function_outside (h : m.size ≤ (sp - 32).toNat)
    (htype : p.functionType? 0 = some ⟨[.i64], []⟩)
    (hgas : call 0 [.i64 3] ⟨[m], [.i32 sp], host⟩ = .ends ([], ⟨[m], [.i32 sp], host'⟩)) :
    function.call p call [] ⟨[m], [.i32 sp], host⟩ =
      .traps .outOfBounds ⟨[m], [.i32 sp], host'⟩ := by
  have hbody : run p call body ⟨⟨[m], [.i32 sp], host⟩, [.i32 0, .i32 0], []⟩ =
      .traps .outOfBounds ⟨[m], [.i32 sp], host'⟩ := by
    unfold body
    simp only [Code.ops_cons, Code.ops_nil]
    rw [run_const, run_call_unit htype hgas, run_globalGet rfl]
    -- the offset is loaded first, and it may be outside the memory, too
    refine run_load_of_forall rfl fun offset => ?_
    rw [Access.loaded, run_const, run_numeric rfl, run_localSet, run_globalGet rfl, run_const,
      run_numeric rfl, run_localSet, copy, Code.ops_cons, Code.ops_cons, Code.ops_cons,
      run_localGet rfl, run_localGet rfl]
    exact run_load_of_lt rfl (by simp [Access.width]; omega)
  exact Function.call_of_traps hbody

end Storing

namespace Returning

theorem call_function_outside (h : m.size ≤ (sp - 32).toNat) :
    function.call p call [] ⟨[m], [.i32 sp], host⟩ =
      .traps .outOfBounds ⟨[m], [.i32 sp], host⟩ := by
  have hbody : run p call body ⟨⟨[m], [.i32 sp], host⟩, [], []⟩ =
      .traps .outOfBounds ⟨[m], [.i32 sp], host⟩ := by
    unfold body
    simp only [Code.ops_cons, Code.ops_nil]
    rw [run_globalGet rfl]
    refine run_load_of_forall rfl fun offset => ?_
    rw [Access.loaded, run_const, run_numeric rfl, run_globalGet rfl, run_const, run_numeric rfl]
    exact run_load_of_lt rfl (by simp [Access.width]; omega)
  exact Function.call_of_traps hbody

end Returning

namespace Popping

/-- Removing a word moves the stack pointer down, below the bottom of the stack if need be. -/
theorem call_function (memories : List Memory) (htype : p.functionType? 0 = some ⟨[.i64], []⟩)
    (hgas : call 0 [.i64 2] ⟨memories, [.i32 sp], host⟩ =
      .ends ([], ⟨memories, [.i32 sp], host'⟩)) :
    function.call p call [] ⟨memories, [.i32 sp], host⟩ =
      .ends ([.i32 (sp - 32)], ⟨memories, [.i32 (sp - 32)], host'⟩) := by
  have hbody : run p call function.body ⟨⟨memories, [.i32 sp], host⟩,
      [] ++ function.locals.map Value.zero, []⟩ =
      .ends (.next, ⟨⟨memories, [.i32 (sp - 32)], host'⟩, [], [.i32 (sp - 32)]⟩) := by
    unfold function
    simp only [Code.ops_cons, Code.ops_nil]
    rw [run_const, run_call_unit htype hgas]
    exact Opcode.run_lower p call 32 sp memories host' [] []
  exact Function.call_of_ends hbody

end Popping

namespace Opcode

variable {c : Contract} {e : Environment} {waiting : List Effect}

theorem call_add_outside (h : m.size ≤ (sp - 32).toNat) :
    ((session c (program "ADD" [gasImport] [Addition.function] [charger]) e m sp
      waiting).call "ADD" []).1 = .error (.trap Trap.outOfBounds.message) :=
  shipped_add.call_of_traps (Addition.call_function_outside _ _ h rfl
    (callWithin_charger shown?_program rfl (by decide)))

theorem call_mstore_outside (h : m.size ≤ (sp - 32).toNat) :
    ((session c (program "MSTORE" [gasImport] [Storing.function] [charger]) e m sp
      waiting).call "MSTORE" []).1 = .error (.trap Trap.outOfBounds.message) :=
  shipped_mstore.call_of_traps (Storing.call_function_outside _ _ h rfl
    (callWithin_charger shown?_program rfl (by decide)))

theorem call_return_outside (h : m.size ≤ (sp - 32).toNat) :
    ((session c (program "RETURN" [Returning.stageImport, gasImport] [Returning.function]
      [Interface.stager .finish, charger]) e m sp waiting).call "RETURN" []).1 =
      .error (.trap Trap.outOfBounds.message) :=
  shipped_return.call_of_traps (Returning.call_function_outside _ _ h)

/-- Removing a word gives the address of the word below, and charges two. -/
theorem call_pop : (session c (program "POP" [gasImport] [Popping.function] [charger]) e m sp
      waiting).call "POP" [] =
      (.ok (Value.i32 (sp - 32)).signed?,
        session c (program "POP" [gasImport] [Popping.function] [charger]) e m (sp - 32)
          (waiting ++ [.useGas 2])) :=
  shipped_pop.call (Popping.call_function _ _ [m] rfl
    (callWithin_charger shown?_program rfl (by decide)))

end Opcode

end OpcodeConformance
