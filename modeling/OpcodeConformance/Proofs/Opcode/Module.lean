import OpcodeConformance.Contract.Call
import OpcodeConformance.Contract.Interface
import OpcodeConformance.Dispatch
import OpcodeConformance.Proofs.Results
import OpcodeConformance.Proofs.Wasm.Execution

namespace OpcodeConformance.Opcode

open Wasm

def setter : Function := ⟨⟨[.i32], []⟩, [], .ops [.localGet 0, .globalSet 0] .done⟩

/-- The module for an opcode whose function is the last of the given ones: a memory of two pages,
the stack pointer, the functions, and the exports. Its imports are functions of the environment. -/
def module (op : String) (imports : List (String × FunctionType)) (functions : List Function) :
    Module where
  imports := imports.map fun i => ⟨"ethereum", i.1, .function i.2⟩
  functions := functions ++ [setter]
  memories := [⟨2, none, false, false⟩]
  globals := [⟨⟨.i32, true⟩, .op (.const (.i32 (-32))) .done⟩]
  exports := [
    ⟨Program.memoryName, .memory 0⟩,
    ⟨Dispatch.setterName, .function (imports.length + functions.length)⟩,
    ⟨op, .function (imports.length + functions.length - 1)⟩]
  starts := []
  segments := []

def gasImport : String × FunctionType := ("useGas", ⟨[.i64], []⟩)

def memorySize : Nat := 131072

/-- The functions of the host that imports stand for. -/
def Linked (imports : List (String × FunctionType)) (hosts : List (HostFunction HostState)) :
    Prop :=
  List.Forall₂ (fun i h => Interface.ethereum.lookup i.1 = some h ∧ h.type = i.2) imports hosts

def program (op : String) (imports : List (String × FunctionType)) (functions : List Function)
    (hosts : List (HostFunction HostState)) : Program HostState :=
  ⟨module op imports functions, hosts,
    (functions ++ [setter]).map (·.stackUse (module op imports functions).functionTypes)⟩

def instanceOf (p : Program HostState) (m : Memory) (sp : UInt32) (host : HostState) :
    Instance HostState := ⟨p, ⟨[m], [.i32 sp], host⟩⟩

variable {op : String} {imports : List (String × FunctionType)} {functions : List Function}
  {hosts : List (HostFunction HostState)} {m : Memory} {sp : UInt32} {host : HostState}

theorem importedFunctions_module :
    (module op imports functions).importedFunctions = imports.map (·.2) := by
  rw [Module.importedFunctions, module, List.filterMap_map]
  exact congrFun List.filterMap_eq_map imports

theorem memoryLimits_module :
    (module op imports functions).memoryLimits = [⟨2, none, false, false⟩] := by
  have hmemories : (module op imports functions).importedMemories = [] := by
    simp [Module.importedMemories, module]
  rw [Module.memoryLimits, hmemories]
  rfl

theorem functionTypes_module :
    (module op imports functions).functionTypes =
      imports.map (·.2) ++ (functions ++ [setter]).map (·.type) := by
  rw [Module.functionTypes, importedFunctions_module]
  rfl

theorem exportedFunction?_setter :
    (module op imports functions).exportedFunction? Dispatch.setterName =
      some (imports.length + functions.length) := rfl

theorem exportedFunction?_op (hmemory : op ≠ Program.memoryName)
    (hsetter : op ≠ Dispatch.setterName) :
    (module op imports functions).exportedFunction? op =
      some (imports.length + functions.length - 1) := by
  simp [Module.exportedFunction?, Module.target?, module, Ne.symm hmemory,
    Ne.symm hsetter]

theorem exportedFunction?_none {name : String} (hmemory : name ≠ Program.memoryName)
    (hsetter : name ≠ Dispatch.setterName) (hop : name ≠ op) :
    (module op imports functions).exportedFunction? name = none := by
  simp [Module.exportedFunction?, Module.target?, module, Ne.symm hmemory,
    Ne.symm hsetter, Ne.symm hop]

@[simp] theorem shown?_program : (program op imports functions hosts).shown? = some 0 := by
  have hmemory : (module op imports functions).exportedMemory? Program.memoryName = some 0 := rfl
  rw [Program.shown?, program, hmemory, memoryLimits_module]
  rfl

theorem length_of_linked (h : Linked imports hosts) : hosts.length = imports.length :=
  (List.Forall₂.length_eq h).symm

/-- The module starts with zeros in its memory, and with the stack pointer below an empty stack. -/
theorem start_module (h : Linked imports hosts) (host : HostState) :
    Instance.start Interface.host (module op imports functions) host =
      .ok (instanceOf (program op imports functions hosts) (.zeros memorySize) (-32) host) := by
  have himports : (module op imports functions).imports.mapM (Instance.resolve Interface.host) =
      .ok hosts := by
    apply Results.mapM_of_forall₂
    apply List.forall₂_map_left_iff.mpr
    refine h.imp fun i f hf => ?_
    have hlookup : Interface.host "ethereum" i.1 = some f := hf.1
    simp only [Instance.resolve, hlookup, hf.2, if_true]
  unfold Instance.start
  rw [himports]
  rfl

variable {k : Nat} {f : Function}

theorem functionType?_function (hf : (functions ++ [setter])[k]? = some f) :
    (program op imports functions hosts).functionType? (imports.length + k) = some f.type := by
  rw [Program.functionType?, program, functionTypes_module,
    List.getElem?_append_right (by simp), List.length_map, Nat.add_sub_cancel_left,
    List.getElem?_map, hf]
  rfl

theorem callWithin_function (h : Linked imports hosts) (hf : (functions ++ [setter])[k]? = some f)
    {depth room : Nat} (hroom : f.stackUse (module op imports functions).functionTypes ≤ room)
    (args : List Value) (s : Store HostState) :
    (program op imports functions hosts).callWithin (depth + 1) room (imports.length + k) args s =
      f.call (program op imports functions hosts)
        ((program op imports functions hosts).callWithin depth
          (room - f.stackUse (module op imports functions).functionTypes)) args s := by
  have hle : (program op imports functions hosts).imports.length ≤ imports.length + k := by
    rw [program, length_of_linked h]
    exact Nat.le_add_right _ _
  have hindex : imports.length + k - (program op imports functions hosts).imports.length = k := by
    rw [program, length_of_linked h, Nat.add_sub_cancel_left]
  have huse : (program op imports functions hosts).stackUse k =
      f.stackUse (module op imports functions).functionTypes := by
    rw [Program.stackUse, program, List.getD_eq_getElem?_getD, List.getElem?_map, hf]
    rfl
  rw [Program.callWithin_function hle (by rw [hindex]; exact hf)
    (by rw [hindex, huse]; exact hroom), hindex, huse]

theorem enter_function (h : Linked imports hosts) (hf : (functions ++ [setter])[k]? = some f)
    (hroom : f.stackUse (module op imports functions).functionTypes ≤ stackSize)
    (args : List Value) (s : Store HostState) :
    (program op imports functions hosts).enter (imports.length + k) args s =
      f.call (program op imports functions hosts)
        ((program op imports functions hosts).callWithin 32767
          (stackSize - f.stackUse (module op imports functions).functionTypes)) args s := by
  have hle : (program op imports functions hosts).imports.length ≤ imports.length + k := by
    rw [program, length_of_linked h]
    exact Nat.le_add_right _ _
  rw [Program.enter_of_function hle]
  exact callWithin_function h hf hroom args s

theorem enter_setter (h : Linked imports hosts) (x : UInt32) :
    (program op imports functions hosts).enter (imports.length + functions.length) [.i32 x]
        ⟨[m], [.i32 sp], host⟩ = .ends ([], ⟨[m], [.i32 x], host⟩) := by
  have hroom : setter.stackUse (module op imports functions).functionTypes ≤ stackSize := by
    -- the setter calls nothing, so the types of the functions do not matter
    change setter.stackUse [] ≤ stackSize
    decide
  exact enter_function h List.getElem?_concat_length hroom _ _

end OpcodeConformance.Opcode
