import OpcodeConformance.Proofs.Memory
import OpcodeConformance.Wasm.Execution

namespace OpcodeConformance.Wasm

variable {η : Type} {p : Program η} {call : Nat → List Value → Store η → Call η} {next : Code}
  {s t : Store η} {locals stack : List Value} {v : Value}

def Code.ops (os : List Op) (next : Code) : Code := os.foldr .op next

@[simp] theorem Code.ops_nil (next : Code) : Code.ops [] next = next := rfl

@[simp] theorem Code.ops_cons (o : Op) (os : List Op) (next : Code) :
    Code.ops (o :: os) next = .op o (.ops os next) := rfl

theorem Code.ops_append (os os' : List Op) (next : Code) :
    Code.ops (os ++ os') next = .ops os (.ops os' next) := List.foldr_append

@[simp] theorem Outcome.goOn_next (f : Frame η) (k : Frame η → Step η) :
    Outcome.goOn (.ends (.next, f)) k = k f := rfl

@[simp] theorem Outcome.goOn_jump (l : Nat) (f : Frame η) (k : Frame η → Step η) :
    Outcome.goOn (.ends (.jump l, f)) k = .ends (.jump l, f) := rfl

@[simp] theorem Outcome.goOn_traps (trap : Trap) (s : Store η) (k : Frame η → Step η) :
    Outcome.goOn (.traps trap s) k = .traps trap s := rfl

@[simp] theorem Outcome.leave_traps (trap : Trap) (s : Store η) (count : Nat)
    (outer : List Value) : Outcome.leave (.traps trap s) count outer = .traps trap s := rfl

@[simp] theorem Outcome.leave_jump_zero (f : Frame η) (outer : List Value) :
    Outcome.leave (.ends (.jump 0, f)) 0 outer = .ends (.next, { f with stack := outer }) := rfl

@[simp] theorem Outcome.leave_jump_succ (l : Nat) (f : Frame η) (count : Nat)
    (outer : List Value) :
    Outcome.leave (.ends (.jump (l + 1), f)) count outer = .ends (.jump l, f) := rfl

@[simp] theorem run_done (f : Frame η) : run p call .done f = .ends (.next, f) := rfl

theorem run_op {o : Op} {f g : Frame η} (h : step p call o f = .ends (.next, g)) :
    run p call (.op o next) f = run p call next g := by
  rw [run, h, Outcome.goOn]

theorem run_op_of_traps {o : Op} {f : Frame η} {trap : Trap} (h : step p call o f = .traps trap t) :
    run p call (.op o next) f = .traps trap t := by
  rw [run, h, Outcome.goOn_traps]

@[simp] theorem run_const :
    run p call (.op (.const v) next) ⟨s, locals, stack⟩ =
      run p call next ⟨s, locals, v :: stack⟩ := rfl

@[simp] theorem run_localSet (i : Nat) :
    run p call (.op (.localSet i) next) ⟨s, locals, v :: stack⟩ =
      run p call next ⟨s, locals.set i v, stack⟩ := rfl

@[simp] theorem run_globalSet (i : Nat) :
    run p call (.op (.globalSet i) next) ⟨s, locals, v :: stack⟩ =
      run p call next ⟨{ s with globals := s.globals.set i v }, locals, stack⟩ := rfl

@[simp] theorem run_branch (l : Nat) (f : Frame η) :
    run p call (.op (.branch l) next) f = .ends (.jump l, f) := rfl

theorem run_localGet {i : Nat} (h : locals[i]? = some v) :
    run p call (.op (.localGet i) next) ⟨s, locals, stack⟩ =
      run p call next ⟨s, locals, v :: stack⟩ := by
  apply run_op
  unfold step
  simp only [h, Frame.push]

theorem run_globalGet {i : Nat} (h : s.globals[i]? = some v) :
    run p call (.op (.globalGet i) next) ⟨s, locals, stack⟩ =
      run p call next ⟨s, locals, v :: stack⟩ := by
  apply run_op
  unfold step
  simp only [h, Frame.push]

theorem run_numeric {n : Numeric} {stack' : List Value} (h : n.apply stack = .ok stack') :
    run p call (.op (.numeric n) next) ⟨s, locals, stack⟩ =
      run p call next ⟨s, locals, stack'⟩ := by
  apply run_op
  unfold step
  simp only [h, Frame.goOn]

theorem run_branchIf (l : Nat) (c : UInt32) :
    run p call (.op (.branchIf l) next) ⟨s, locals, .i32 c :: stack⟩ =
      if c = 0 then run p call next ⟨s, locals, stack⟩
      else .ends (.jump l, ⟨s, locals, stack⟩) := by
  change Outcome.goOn (.ends (if c = 0 then .next else .jump l, ⟨s, locals, stack⟩)) _ = _
  by_cases hc : c = 0
  · rw [if_pos hc, if_pos hc, Outcome.goOn_next]
  · rw [if_neg hc, if_neg hc, Outcome.goOn_jump]

@[simp] theorem run_branchIf_ofBool (l : Nat) (c : Bool) :
    run p call (.op (.branchIf l) next) ⟨s, locals, .ofBool c :: stack⟩ =
      if c then .ends (.jump l, ⟨s, locals, stack⟩) else run p call next ⟨s, locals, stack⟩ := by
  cases c <;> exact run_branchIf l _

theorem run_load {a : Access} {place : Location} {i : UInt32}
    (h : s.load? a place.memory (i.toNat + place.offset) = some v) :
    run p call (.op (.load a place) next) ⟨s, locals, .i32 i :: stack⟩ =
      run p call next ⟨s, locals, v :: stack⟩ := by
  apply run_op
  unfold step
  simp only [h, Frame.goOn]

theorem run_store {a : Access} {place : Location} {i : UInt32} {bs : Bytes}
    (hbs : Store.storedBytes? a v = some bs)
    (h : s.write? place.memory (i.toNat + place.offset) bs = some t) :
    run p call (.op (.store a place) next) ⟨s, locals, v :: .i32 i :: stack⟩ =
      run p call next ⟨t, locals, stack⟩ := by
  apply run_op
  unfold step
  simp only [hbs, h, Frame.goOn]

theorem run_call {i : Nat} {type : FunctionType} {results : List Value}
    (htype : p.functionType? i = some type)
    (h : call i (stack.take type.params.length).reverse s = .ends (results, t)) :
    run p call (.op (.call i) next) ⟨s, locals, stack⟩ =
      run p call next ⟨t, locals, results.reverse ++ stack.drop type.params.length⟩ := by
  apply run_op
  unfold step
  simp only [htype, h, Frame.goOn]

theorem run_call_of_traps {i : Nat} {type : FunctionType} {trap : Trap}
    (htype : p.functionType? i = some type)
    (h : call i (stack.take type.params.length).reverse s = .traps trap t) :
    run p call (.op (.call i) next) ⟨s, locals, stack⟩ = .traps trap t := by
  apply run_op_of_traps
  unfold step
  simp only [htype, h]

/-- A call of a function that takes one value and gives none. -/
theorem run_call_unit {i : Nat} {type : ValueType} (htype : p.functionType? i = some ⟨[type], []⟩)
    (h : call i [v] s = .ends ([], t)) :
    run p call (.op (.call i) next) ⟨s, locals, v :: stack⟩ =
      run p call next ⟨t, locals, stack⟩ := by
  rw [run_call htype h]
  rfl

theorem run_block {body : Code} :
    run p call (.block ⟨[], []⟩ body next) ⟨s, locals, stack⟩ =
      ((run p call body ⟨s, locals, []⟩).leave 0 stack).goOn (run p call next) := rfl

theorem run_loop {body : Code} (hskip : skip 0 body ⟨s, locals, stack⟩ = ⟨s, locals, stack⟩) :
    run p call (.loop ⟨[], []⟩ body next) ⟨s, locals, stack⟩ =
      ((iterate 0 (run p call body) greatestIterations ⟨s, locals, stack⟩).leave 0 stack).goOn
        (run p call next) := by
  rw [run]
  change ((iterate 0 (run p call body) greatestIterations (skip 0 body _)).leave 0 _).goOn _ = _
  rw [hskip]
  rfl

/-- As many rounds as keep an invariant can be taken off a loop. -/
theorem iterate_of_invariant {count rounds n : Nat} {body : Frame η → Step η}
    {I : Nat → Frame η → Prop}
    (hround : ∀ k f, k < rounds → I k f → ∃ g,
      body { f with stack := f.stack.take count } = .ends (.jump 0, g) ∧ I (k + 1) g)
    {f : Frame η} (hf : I 0 f) :
    ∃ g, I rounds g ∧ iterate count body (n + rounds) f = iterate count body n g := by
  induction rounds generalizing f I with
  | zero => exact ⟨f, hf, rfl⟩
  | succ rounds ih =>
    obtain ⟨g, hg, hI⟩ := hround 0 f (Nat.succ_pos rounds) hf
    -- behind the first round the invariant starts at one
    obtain ⟨e, he, hiterate⟩ := ih (I := fun k => I (k + 1))
      (fun k f hk => hround (k + 1) f (Nat.succ_lt_succ hk)) hI
    refine ⟨e, he, ?_⟩
    rw [← Nat.add_assoc, iterate, hg]
    exact hiterate

/-- A round that jumps out of the loop is its last. -/
theorem iterate_of_exit {count n l : Nat} {body : Frame η → Step η} {f g : Frame η}
    (h : body { f with stack := f.stack.take count } = .ends (.jump (l + 1), g)) :
    iterate count body (n + 1) f = .ends (.jump (l + 1), g) := by
  simp only [iterate, h]

theorem iterate_of_traps {count n : Nat} {body : Frame η → Step η} {f : Frame η} {trap : Trap}
    (h : body { f with stack := f.stack.take count } = .traps trap t) :
    iterate count body (n + 1) f = .traps trap t := by
  simp only [iterate, h]

def Access.loaded : Access → Nat → Value
  | word64, n => .i64 (UInt64.ofNat n)
  | word32, n => .i32 (UInt32.ofNat n)
  | byte, n => .i32 (UInt32.ofNat n)

theorem storedBytes?_loaded {a : Access} {bs : Bytes} (h : bs.length = a.width) :
    Store.storedBytes? a (a.loaded (Bytes.littleValue bs)) = some bs := by
  have hlt := Bytes.littleValue_lt bs
  have hlittle := Bytes.little_littleValue bs
  rw [h] at hlt hlittle
  cases a with
  | word32 =>
    rw [Access.loaded, Store.storedBytes?, UInt32.toNat_ofNat_of_lt' hlt]
    exact congrArg some hlittle
  | byte =>
    rw [Access.loaded, Store.storedBytes?,
      UInt32.toNat_ofNat_of_lt' (Nat.lt_trans hlt (by decide))]
    exact congrArg some hlittle
  | word64 =>
    rw [Access.loaded, Store.storedBytes?, UInt64.toNat_ofNat_of_lt' hlt]
    exact congrArg some hlittle

theorem load?_of_le {m : Memory} {globals : List Value} {h : η} {a : Access} {address : Nat}
    (hle : address + a.width ≤ m.size) :
    (⟨[m], globals, h⟩ : Store η).load? a 0 address =
      some (a.loaded (Bytes.littleValue (m.slice address a.width))) := by
  have hread := Memory.read?_of_le hle
  cases a <;> simp [Store.load?, hread, Access.loaded]

theorem load?_of_lt {m : Memory} {globals : List Value} {h : η} {a : Access} {address : Nat}
    (hlt : m.size < address + a.width) :
    (⟨[m], globals, h⟩ : Store η).load? a 0 address = none := by
  have hread : m.read? address a.width = none := if_neg (Nat.not_le.mpr hlt)
  simp [Store.load?, hread]

theorem write?_of_le {m : Memory} {globals : List Value} {h : η} {address : Nat} {bs : Bytes}
    (hle : address + bs.length ≤ m.size) :
    (⟨[m], globals, h⟩ : Store η).write? 0 address bs =
      some ⟨[m.overlay address bs], globals, h⟩ := by
  simp [Store.write?, Memory.write?_of_le hle, Store.withMemory]

theorem run_load_of_le {m : Memory} {globals : List Value} {h : η} {a : Access} {place : Location}
    {address : Nat} (hmemory : place.memory = 0) (hlt : address < 2 ^ 32)
    (hle : address + place.offset + a.width ≤ m.size)
    (hv : a.loaded (Bytes.littleValue (m.slice (address + place.offset) a.width)) = v) :
    run p call (.op (.load a place) next)
        ⟨⟨[m], globals, h⟩, locals, .i32 (.ofNat address) :: stack⟩ =
      run p call next ⟨⟨[m], globals, h⟩, locals, v :: stack⟩ := by
  apply run_load
  rw [hmemory, UInt32.toNat_ofNat_of_lt' hlt, ← hv]
  exact load?_of_le hle

theorem run_load_of_lt {m : Memory} {globals : List Value} {h : η} {a : Access} {place : Location}
    {i : UInt32} (hmemory : place.memory = 0) (hlt : m.size < i.toNat + place.offset + a.width) :
    run p call (.op (.load a place) next) ⟨⟨[m], globals, h⟩, locals, .i32 i :: stack⟩ =
      .traps .outOfBounds ⟨[m], globals, h⟩ := by
  apply run_op_of_traps
  unfold step
  simp only [hmemory, load?_of_lt hlt, Frame.trap]

/-- A load traps if the code behind it would, whatever is loaded. -/
theorem run_load_of_forall {m : Memory} {globals : List Value} {h : η} {a : Access}
    {place : Location} {i : UInt32} (hmemory : place.memory = 0)
    (hnext : ∀ n, run p call next ⟨⟨[m], globals, h⟩, locals, a.loaded n :: stack⟩ =
      .traps .outOfBounds ⟨[m], globals, h⟩) :
    run p call (.op (.load a place) next) ⟨⟨[m], globals, h⟩, locals, .i32 i :: stack⟩ =
      .traps .outOfBounds ⟨[m], globals, h⟩ := by
  rcases Nat.lt_or_ge m.size (i.toNat + place.offset + a.width) with hlt | hle
  · exact run_load_of_lt hmemory hlt
  · rw [run_load (v := a.loaded _) (by rw [hmemory]; exact load?_of_le hle)]
    exact hnext _

theorem run_store_of_le {m : Memory} {globals : List Value} {h : η} {a : Access} {place : Location}
    {address : Nat} {bs : Bytes} (hbs : Store.storedBytes? a v = some bs)
    (hmemory : place.memory = 0) (hlt : address < 2 ^ 32)
    (hle : address + place.offset + bs.length ≤ m.size) :
    run p call (.op (.store a place) next)
        ⟨⟨[m], globals, h⟩, locals, v :: .i32 (.ofNat address) :: stack⟩ =
      run p call next
        ⟨⟨[m.overlay (address + place.offset) bs], globals, h⟩, locals, stack⟩ := by
  apply run_store hbs
  rw [hmemory, UInt32.toNat_ofNat_of_lt' hlt]
  exact write?_of_le hle

theorem run_store_of_lt {m : Memory} {globals : List Value} {h : η} {a : Access} {place : Location}
    {i : UInt32} {bs : Bytes} (hbs : Store.storedBytes? a v = some bs) (hmemory : place.memory = 0)
    (hlt : m.size < i.toNat + place.offset + bs.length) :
    run p call (.op (.store a place) next) ⟨⟨[m], globals, h⟩, locals, v :: .i32 i :: stack⟩ =
      .traps .outOfBounds ⟨[m], globals, h⟩ := by
  have hwrite : m.write? (i.toNat + place.offset) bs = none := if_neg (Nat.not_le.mpr hlt)
  apply run_op_of_traps
  unfold step
  simp [hbs, hmemory, Store.write?, hwrite, Frame.trap]

/-- If code goes on behind a load, the load is inside the only memory. -/
theorem le_of_run_load {m : Memory} {globals : List Value} {h : η} {a : Access} {place : Location}
    {i : UInt32} {x : Flow × Frame η} (hmemory : place.memory = 0)
    (hrun : run p call (.op (.load a place) next)
      ⟨⟨[m], globals, h⟩, locals, .i32 i :: stack⟩ = .ends x) :
    i.toNat + place.offset + a.width ≤ m.size := by
  by_contra hlt
  rw [run_load_of_lt hmemory (Nat.lt_of_not_le hlt)] at hrun
  cases hrun

theorem le_of_run_store {m : Memory} {globals : List Value} {h : η} {a : Access} {place : Location}
    {i : UInt32} {bs : Bytes} {x : Flow × Frame η} (hbs : Store.storedBytes? a v = some bs)
    (hmemory : place.memory = 0)
    (hrun : run p call (.op (.store a place) next)
      ⟨⟨[m], globals, h⟩, locals, v :: .i32 i :: stack⟩ = .ends x) :
    i.toNat + place.offset + bs.length ≤ m.size := by
  by_contra hlt
  rw [run_store_of_lt hbs hmemory (Nat.lt_of_not_le hlt)] at hrun
  cases hrun

/-- A function that ends gives the uppermost values of its stack. -/
theorem Function.call_of_ends {f : Function} {args : List Value} {flow : Flow} {g : Frame η}
    (h : run p call f.body ⟨s, args ++ f.locals.map Value.zero, []⟩ = .ends (flow, g)) :
    f.call p call args s = .ends ((g.stack.take f.type.results.length).reverse, g.store) := by
  simp only [Function.call, h]

theorem Function.call_of_traps {f : Function} {args : List Value} {trap : Trap}
    (h : run p call f.body ⟨s, args ++ f.locals.map Value.zero, []⟩ = .traps trap t) :
    f.call p call args s = .traps trap t := by
  simp only [Function.call, h]

theorem Function.exists_run_of_call_ends {f : Function} {args : List Value}
    {r : List Value × Store η} (h : f.call p call args s = .ends r) :
    ∃ x, run p call f.body ⟨s, args ++ f.locals.map Value.zero, []⟩ = .ends x := by
  cases hrun : run p call f.body ⟨s, args ++ f.locals.map Value.zero, []⟩ with
  | ends x => exact ⟨x, rfl⟩
  | traps trap t =>
    rw [Function.call_of_traps hrun] at h
    cases h

namespace Numeric

theorem apply_i32Add (x y : Nat) :
    i32Add.apply (.i32 (.ofNat y) :: .i32 (.ofNat x) :: stack) =
      .ok (.i32 (.ofNat (x + y)) :: stack) := by
  rw [apply, UInt32.ofNat_add]

theorem apply_i64Add (x y : Nat) :
    i64Add.apply (.i64 (.ofNat y) :: .i64 (.ofNat x) :: stack) =
      .ok (.i64 (.ofNat (x + y)) :: stack) := by
  rw [apply, UInt64.ofNat_add]

theorem apply_i32Sub {x y : Nat} (h : y ≤ x) :
    i32Sub.apply (.i32 (.ofNat y) :: .i32 (.ofNat x) :: stack) =
      .ok (.i32 (.ofNat (x - y)) :: stack) := by
  rw [apply, UInt32.ofNat_sub h]

theorem apply_i32And_ofBool (x y : Bool) :
    i32And.apply (.ofBool y :: .ofBool x :: stack) = .ok (.ofBool (x && y) :: stack) := by
  cases x <;> cases y <;> rfl

theorem apply_i32Or_ofBool (x y : Bool) :
    i32Or.apply (.ofBool y :: .ofBool x :: stack) = .ok (.ofBool (x || y) :: stack) := by
  cases x <;> cases y <;> rfl

theorem apply_i64ExtendI32U {x : Nat} (h : x < 2 ^ 32) :
    i64ExtendI32U.apply (.i32 (.ofNat x) :: stack) = .ok (.i64 (.ofNat x) :: stack) := by
  have hextend : (UInt32.ofNat x).toUInt64 = .ofNat x := by
    apply UInt64.toNat_inj.mp
    rw [UInt32.toNat_toUInt64, UInt32.toNat_ofNat_of_lt' h,
      UInt64.toNat_ofNat_of_lt' (Nat.lt_trans h (by decide))]
  rw [apply, hextend]

theorem apply_i64ExtendI32U_ofBool (x : Bool) :
    i64ExtendI32U.apply (.ofBool x :: stack) = .ok (.i64 (.ofNat x.toNat) :: stack) := by
  cases x <;> rfl

end Numeric

namespace Program

theorem callWithin_import {depth room i : Nat} {h : HostFunction η} {args : List Value}
    (hi : p.imports[i]? = some h) :
    p.callWithin (depth + 1) room i args s = p.callHost h (p.view s) args s := by
  simp only [callWithin, hi]

theorem callWithin_import_of_ok {depth room i : Nat} {h : HostFunction η}
    {args results : List Value} {v : HostView η} (hi : p.imports[i]? = some h)
    (hrun : h.run args (p.view s) = .ok (results, v)) :
    p.callWithin (depth + 1) room i args s = .ends (results, p.update s v) := by
  simp only [callWithin_import hi, callHost, hrun]

theorem callWithin_import_of_error {depth room i : Nat} {h : HostFunction η} {args : List Value}
    {reason : String} (hi : p.imports[i]? = some h) (hrun : h.run args (p.view s) = .error reason) :
    p.callWithin (depth + 1) room i args s = .traps (.host reason) s := by
  simp only [callWithin_import hi, callHost, hrun]

theorem view_of_shown {k : Nat} {m : Memory} (hk : p.shown? = some k)
    (hm : s.memories[k]? = some m) :
    p.view s = ⟨some m, s.host⟩ := by
  simp only [view, hk, Option.bind_some, hm]

theorem update_of_shown {k : Nat} (hk : p.shown? = some k) (m : Memory) (host : η) :
    p.update s ⟨some m, host⟩ = { s.withMemory k m with host } := by
  simp only [update, hk]
  rfl

theorem callWithin_function {depth room i : Nat} {f : Function} {args : List Value}
    (hi : p.imports.length ≤ i) (hf : p.module.functions[i - p.imports.length]? = some f)
    (hroom : p.stackUse (i - p.imports.length) ≤ room) :
    p.callWithin (depth + 1) room i args s =
      f.call p (p.callWithin depth (room - p.stackUse (i - p.imports.length))) args s := by
  have hnone : p.imports[i]? = none := List.getElem?_eq_none hi
  simp only [callWithin, hnone, hf, Nat.not_lt.mpr hroom, if_false, onStack_eq]

theorem enter_of_function {i : Nat} {args : List Value} (hi : p.imports.length ≤ i) :
    p.enter i args s = p.callWithin greatestDepth stackSize i args s := by
  have hnone : p.imports[i]? = none := List.getElem?_eq_none hi
  simp only [enter, hnone, Program.call]

end Program

end OpcodeConformance.Wasm
