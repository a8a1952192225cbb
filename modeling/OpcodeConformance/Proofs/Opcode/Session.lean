import OpcodeConformance.Contract
import OpcodeConformance.Proofs.Opcode.Module

namespace OpcodeConformance.Opcode

open Wasm

/-- The contract with an instance of a program whose host has an open queue, and with effects that
wait. -/
def session (c : Contract) (p : Program HostState) (e : Environment) (m : Memory) (sp : UInt32)
    (waiting : List Effect) : Contract :=
  { c with live := some (instanceOf p m sp ⟨e, [], true⟩), queue := some waiting }

variable {c : Contract} {op : String} {imports : List (String × FunctionType)}
  {functions : List Function} {hosts : List (HostFunction HostState)} {p : Program HostState}
  {e : Environment} {m m' : Memory} {sp sp' : UInt32} {waiting : List Effect}

theorem memory_instanceOf (hp : p.shown? = some 0) (host : HostState) :
    (instanceOf p m sp host).memory = m := by
  simp [Instance.memory, Program.view, hp, instanceOf]

theorem write_session (hp : p.shown? = some 0) {offset : Nat} {bs : Bytes}
    (h : offset + bs.length ≤ m.size) :
    (session c p e m sp waiting).write offset bs =
      (.ok (), session c p e (m.overlay offset bs) sp waiting) := by
  have hwrite : (instanceOf p m sp ⟨e, [], true⟩).write? offset bs =
      some (instanceOf p (m.overlay offset bs) sp ⟨e, [], true⟩) := by
    rw [Instance.write?, memory_instanceOf hp, Memory.write?_of_le h]
    simp [Program.update, hp, Store.withMemory, instanceOf]
  simp only [Contract.write, session, Call.write, hwrite]

theorem write_session_of_lt (hp : p.shown? = some 0) {offset : Nat} {bs : Bytes}
    (h : m.size < offset + bs.length) :
    (session c p e m sp waiting).write offset bs =
      (.error (.memoryOutOfBounds offset bs.length m.size), session c p e m sp waiting) := by
  have hmemory : m.write? offset bs = none := if_neg (Nat.not_le.mpr h)
  have hwrite : (instanceOf p m sp ⟨e, [], true⟩).write? offset bs = none := by
    rw [Instance.write?, memory_instanceOf hp, hmemory]
    rfl
  simp only [Contract.write, session, Call.write, hwrite, memory_instanceOf hp]

/-- A call whose function ends leaves what the function leaves, and what it has raised waits
last. -/
theorem call_session {name : String} {params : List Int64} {n : Nat} {args results : List Value}
    {raised : List Effect}
    (htarget : Call.target (instanceOf p m sp ⟨e, [], true⟩) name params = .ok (n, args))
    (henter : p.enter n args ⟨[m], [.i32 sp], ⟨e, [], true⟩⟩ =
      .ends (results, ⟨[m'], [.i32 sp'], ⟨e, raised, true⟩⟩)) :
    (session c p e m sp waiting).call name params =
      (.ok (results.head?.bind Value.signed?), session c p e m' sp' (waiting ++ raised)) := by
  have henter' : (instanceOf p m sp ⟨e, [], true⟩).program.enter n args
      (instanceOf p m sp ⟨e, [], true⟩).store =
      .ends (results, ⟨[m'], [.i32 sp'], ⟨e, raised, true⟩⟩) := henter
  simp only [Contract.call, session, Call.run, htarget, henter']
  rfl

theorem call_session_of_traps {name : String} {params : List Int64} {n : Nat} {args : List Value}
    {trap : Trap} {s : Store HostState}
    (htarget : Call.target (instanceOf p m sp ⟨e, [], true⟩) name params = .ok (n, args))
    (henter : p.enter n args ⟨[m], [.i32 sp], ⟨e, [], true⟩⟩ = .traps trap s) :
    ((session c p e m sp waiting).call name params).1 = .error (.trap trap.message) := by
  have henter' : (instanceOf p m sp ⟨e, [], true⟩).program.enter n args
      (instanceOf p m sp ⟨e, [], true⟩).store = .traps trap s := henter
  simp only [Contract.call, session, Call.run, htarget, henter']

/-- A call whose function traps is refused, and what the function has done before stays. -/
theorem call_session_of_traps_at {name : String} {params : List Int64} {n : Nat}
    {args : List Value} {trap : Trap} {raised : List Effect}
    (htarget : Call.target (instanceOf p m sp ⟨e, [], true⟩) name params = .ok (n, args))
    (henter : p.enter n args ⟨[m], [.i32 sp], ⟨e, [], true⟩⟩ =
      .traps trap ⟨[m'], [.i32 sp'], ⟨e, raised, true⟩⟩) :
    (session c p e m sp waiting).call name params =
      (.error (.trap trap.message), session c p e m' sp' (waiting ++ raised)) := by
  have henter' : (instanceOf p m sp ⟨e, [], true⟩).program.enter n args
      (instanceOf p m sp ⟨e, [], true⟩).store =
      .traps trap ⟨[m'], [.i32 sp'], ⟨e, raised, true⟩⟩ := henter
  simp only [Contract.call, session, Call.run, htarget, henter']
  rfl

theorem call_session_of_error {name : String} {params : List Int64} {f : Fault}
    (htarget : Call.target (instanceOf p m sp ⟨e, [], true⟩) name params = .error f) :
    ((session c p e m sp waiting).call name params).1 = .error f := by
  simp only [Contract.call, session, Call.run, htarget]

theorem target_of_export {i : Instance HostState} {name : String} {params : List Int64} {n : Nat}
    {type : FunctionType} {args : List Value}
    (hexport : i.program.module.exportedFunction? name = some n)
    (htype : i.program.functionType? n = some type) (hcount : type.params.length = params.length)
    (hargs : Call.arguments name type.params params = .ok args) :
    Call.target i name params = .ok (n, args) := by
  simp only [Call.target, hexport, htype, hcount]
  rw [if_neg (fun h => h rfl), hargs]
  rfl

theorem call_setter (h : Linked imports hosts) {x : Int64}
    (hx : Int32.minValue.toInt ≤ x.toInt ∧ x.toInt ≤ Int32.maxValue.toInt) :
    (session c (program op imports functions hosts) e m sp waiting).call Dispatch.setterName [x] =
      (.ok none,
        session c (program op imports functions hosts) e m (UInt32.ofInt x.toInt) waiting) := by
  have htype : (program op imports functions hosts).functionType?
      (imports.length + functions.length) = some setter.type :=
    functionType?_function List.getElem?_concat_length
  have hargs : Call.arguments Dispatch.setterName setter.type.params [x] =
      .ok [.i32 (UInt32.ofInt x.toInt)] := by
    simp only [Call.arguments, setter, Call.argument, hx, and_self, if_true]
    rfl
  have htarget : Call.target (instanceOf (program op imports functions hosts) m sp ⟨e, [], true⟩)
      Dispatch.setterName [x] =
      .ok (imports.length + functions.length, [.i32 (UInt32.ofInt x.toInt)]) :=
    target_of_export exportedFunction?_setter htype rfl hargs
  rw [call_session htarget (enter_setter h _), List.append_nil]
  rfl

/-- The function that runs under the name of an opcode: the last one of its module. It has no
parameters, and the stack has room for it. -/
structure Entered (op : String) (imports : List (String × FunctionType))
    (functions : List Function) (hosts : List (HostFunction HostState)) (f : Function) : Prop where
  linked : Linked imports hosts
  last : functions.getLast? = some f
  ne_memory : op ≠ Program.memoryName
  ne_setter : op ≠ Dispatch.setterName
  params : f.type.params = []
  room : f.stackUse (module op imports functions).functionTypes ≤ stackSize

/-- How the function of an opcode calls others: with what it leaves of the stack. -/
abbrev callFrom (op : String) (imports : List (String × FunctionType)) (functions : List Function)
    (hosts : List (HostFunction HostState)) (f : Function) :
    Nat → List Value → Store HostState → Call HostState :=
  (program op imports functions hosts).callWithin 32767
    (stackSize - f.stackUse (module op imports functions).functionTypes)

namespace Entered

variable {f : Function} (h : Entered op imports functions hosts f)
include h

theorem length_pos : 0 < functions.length := by
  apply List.length_pos_iff.mpr
  rintro rfl
  cases h.last

theorem getElem?_append_setter : (functions ++ [setter])[functions.length - 1]? = some f := by
  rw [List.getElem?_append_left (Nat.sub_one_lt_of_lt h.length_pos), ← List.getLast?_eq_getElem?,
    h.last]

theorem exportedFunction? : (module op imports functions).exportedFunction? op =
    some (imports.length + (functions.length - 1)) := by
  rw [exportedFunction?_op h.ne_memory h.ne_setter, Nat.add_sub_assoc h.length_pos]

theorem target (host : HostState) :
    Call.target (instanceOf (program op imports functions hosts) m sp host) op [] =
      .ok (imports.length + (functions.length - 1), []) := by
  have hargs : Call.arguments op f.type.params [] = .ok [] := by rw [h.params]; rfl
  exact target_of_export h.exportedFunction? (functionType?_function h.getElem?_append_setter)
    (by rw [h.params]; rfl) hargs

theorem target_of_ne_nil {params : List Int64} (hne : params ≠ []) (host : HostState) :
    Call.target (instanceOf (program op imports functions hosts) m sp host) op params =
      .error (.wrongParamCount op 0 params.length) := by
  have hexport : (instanceOf (program op imports functions hosts) m sp
      host).program.module.exportedFunction? op = _ := h.exportedFunction?
  have htype : (instanceOf (program op imports functions hosts) m sp host).program.functionType?
      (imports.length + (functions.length - 1)) = _ :=
    functionType?_function h.getElem?_append_setter
  have hcount : ([] : List ValueType).length ≠ params.length :=
    fun hlength => hne (List.length_eq_zero_iff.mp hlength.symm)
  simp only [Call.target, hexport, htype, h.params]
  rw [if_pos hcount]
  rfl

theorem call {results : List Value} {raised : List Effect}
    (hcall : f.call (program op imports functions hosts) (callFrom op imports functions hosts f) []
        ⟨[m], [.i32 sp], ⟨e, [], true⟩⟩ =
      .ends (results, ⟨[m'], [.i32 sp'], ⟨e, raised, true⟩⟩)) :
    (session c (program op imports functions hosts) e m sp waiting).call op [] =
      (.ok (results.head?.bind Value.signed?),
        session c (program op imports functions hosts) e m' sp' (waiting ++ raised)) :=
  call_session (h.target _)
    ((enter_function h.linked h.getElem?_append_setter h.room _ _).trans hcall)

theorem call_of_traps {trap : Trap} {s : Store HostState}
    (hcall : f.call (program op imports functions hosts) (callFrom op imports functions hosts f) []
        ⟨[m], [.i32 sp], ⟨e, [], true⟩⟩ = .traps trap s) :
    ((session c (program op imports functions hosts) e m sp waiting).call op []).1 =
      .error (.trap trap.message) :=
  call_session_of_traps (h.target _)
    ((enter_function h.linked h.getElem?_append_setter h.room _ _).trans hcall)

theorem call_of_traps_at {trap : Trap} {raised : List Effect}
    (hcall : f.call (program op imports functions hosts) (callFrom op imports functions hosts f) []
        ⟨[m], [.i32 sp], ⟨e, [], true⟩⟩ = .traps trap ⟨[m'], [.i32 sp'], ⟨e, raised, true⟩⟩) :
    (session c (program op imports functions hosts) e m sp waiting).call op [] =
      (.error (.trap trap.message),
        session c (program op imports functions hosts) e m' sp' (waiting ++ raised)) :=
  call_session_of_traps_at (h.target _)
    ((enter_function h.linked h.getElem?_append_setter h.room _ _).trans hcall)

/-- If a call of the opcode is answered, its function has ended. -/
theorem exists_ends_of_call_eq_ok {value : Option Int64}
    (hcall : ((session c (program op imports functions hosts) e m sp waiting).call op []).1 =
      .ok value) :
    ∃ r, f.call (program op imports functions hosts) (callFrom op imports functions hosts f) []
      ⟨[m], [.i32 sp], ⟨e, [], true⟩⟩ = .ends r := by
  cases hends : f.call (program op imports functions hosts)
      (callFrom op imports functions hosts f) [] ⟨[m], [.i32 sp], ⟨e, [], true⟩⟩ with
  | ends r => exact ⟨r, rfl⟩
  | traps trap t =>
    rw [h.call_of_traps hends] at hcall
    cases hcall

theorem eq_nil_of_call_eq_ok {params : List Int64} {value : Option Int64}
    (hcall : ((session c (program op imports functions hosts) e m sp waiting).call op params).1 =
      .ok value) : params = [] := by
  by_contra hne
  rw [call_session_of_error (h.target_of_ne_nil hne _)] at hcall
  cases hcall

end Entered

theorem receive_session {message : Message} (h : Linked imports hosts)
    (hcode : c.code = .compiled (module op imports functions))
    (hvalid : (module op imports functions).isValid = true) (hop : op ≠ Contract.entryName)
    (henvironment : Contract.environment c.state c.account message = .ok e) :
    c.receive message =
      (.ok (), session { c with gasLeft := message.gas, response := .none }
        (program op imports functions hosts) e (.zeros memorySize) (-32) []) := by
  have hinstantiate : c.instantiate message =
      .ok (instanceOf (program op imports functions hosts) (.zeros memorySize) (-32)
        ⟨e, [], true⟩) := by
    unfold Contract.instantiate
    rw [henvironment, hcode, Binary.load, hvalid]
    change ((Instance.start Interface.host (module op imports functions) ⟨e, [], true⟩).mapError _
      >>= _) = _
    rw [start_module h]
    change (if (program op imports functions hosts).shown?.isSome then _ else _) = _
    rw [shown?_program]
    rfl
  have hentry : (instanceOf (program op imports functions hosts) (.zeros memorySize) (-32)
      ⟨e, [], true⟩).hasFunction Contract.entryName = false := by
    have hnone : (module op imports functions).exportedFunction? Contract.entryName = none :=
      exportedFunction?_none (by decide) (by decide) hop.symm
    rw [Instance.hasFunction, instanceOf, program, hnone]
    rfl
  unfold Contract.receive
  rw [hinstantiate]
  simp only [hentry]
  rfl

theorem settle_session {amount : UInt64} (h : amount ≤ c.gasLeft) :
    (session c p e m sp [.useGas amount]).settle =
      (.ok (), session { c with gasLeft := c.gasLeft - amount } p e m sp []) := by
  have hlt : ¬c.gasLeft < amount := UInt64.not_lt.mpr h
  simp [Contract.settle, Contract.applyAll, Contract.apply, session, hlt]

def charger : HostFunction HostState where
  type := gasImport.2
  run
    | [.i64 amount], v => Interface.noResult (Interface.useGas v amount.toInt64)
    | _, _ => Interface.refused

theorem linked_gasImport : Linked [gasImport] [charger] := .cons ⟨rfl, rfl⟩ .nil

section Host

variable {depth room i : Nat} {h : HostFunction HostState} {args results : List Value}
  {globals : List Value} {host host' : HostState}

/-- A function of the host changes the memory that it is shown, and its own side. -/
theorem callWithin_host (hp : p.shown? = some 0) (hi : p.imports[i]? = some h)
    (hrun : h.run args ⟨some m, host⟩ = .ok (results, ⟨some m', host'⟩)) :
    p.callWithin (depth + 1) room i args ⟨[m], globals, host⟩ =
      .ends (results, ⟨[m'], globals, host'⟩) := by
  have hview : p.view ⟨[m], globals, host⟩ = ⟨some m, host⟩ := Program.view_of_shown hp rfl
  rw [Program.callWithin_import_of_ok hi (hview ▸ hrun), Program.update_of_shown hp]
  rfl

theorem callWithin_host_of_error {reason : String} (hp : p.shown? = some 0)
    (hi : p.imports[i]? = some h) (hrun : h.run args ⟨some m, host⟩ = .error reason) :
    p.callWithin (depth + 1) room i args ⟨[m], globals, host⟩ =
      .traps (.host reason) ⟨[m], globals, host⟩ := by
  have hview : p.view ⟨[m], globals, host⟩ = ⟨some m, host⟩ := Program.view_of_shown hp rfl
  exact Program.callWithin_import_of_error hi (hview ▸ hrun)

end Host

theorem callWithin_charger {depth room i : Nat} {amount : UInt64} {raised : List Effect}
    (hp : p.shown? = some 0) (hi : p.imports[i]? = some charger) (h : ¬amount.toInt64 < 0) :
    p.callWithin (depth + 1) room i [.i64 amount] ⟨[m], [.i32 sp], ⟨e, raised, true⟩⟩ =
      .ends ([], ⟨[m], [.i32 sp], ⟨e, raised ++ [.useGas amount], true⟩⟩) := by
  apply callWithin_host hp hi
  simp [charger, Interface.useGas, h, Interface.raiseEffect, Interface.noResult, Except.map]

end OpcodeConformance.Opcode
