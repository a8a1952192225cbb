import OpcodeConformance.Wasm.Execution
import OpcodeConformance.Wasm.StackUse

namespace OpcodeConformance.Wasm

abbrev Host (η : Type) := String → String → Option (HostFunction η)

inductive InstantiationError where
  | unknownImport (module name : String)
  | incompatibleImport (module name : String)
  | segmentOutOfBounds
  | start (t : Trap)
  deriving DecidableEq, Repr

def InstantiationError.message : InstantiationError → String
  | unknownImport module name => s!"unknown import: {module}::{name} has not been defined"
  | incompatibleImport module name =>
    s!"incompatible import type for {module}::{name}: types incompatible"
  | segmentOutOfBounds => "wasm trap: out of bounds memory access"
  | start t => t.message

structure Instance (η : Type) where
  program : Program η
  store : Store η

namespace Instance

variable {η : Type}

/-- The host function that an import stands for. The types must be equal, and a host provides
nothing but functions. -/
def resolve (host : Host η) (i : Import) : Except InstantiationError (HostFunction η) :=
  match host i.module i.name with
  | none => .error (.unknownImport i.module i.name)
  | some h =>
    if i.type = .function h.type then .ok h else .error (.incompatibleImport i.module i.name)

def writeSegment (s : Store η) (d : Segment) : Except InstantiationError (Store η) :=
  match d.offset.constant? with
  | some (.i32 offset) =>
    match s.write? d.memory offset.toNat d.content with
    | some s => .ok s
    | none => .error .segmentOutOfBounds
  | _ => .error .segmentOutOfBounds

def initialStore (m : Module) (state : η) : Store η :=
  ⟨m.memories.map fun l => .zeros (l.least * pageSize), m.globals.map Global.start, state⟩

def callEach (p : Program η) : List Nat → Store η → Except InstantiationError (Store η)
  | [], s => .ok s
  | i :: is, s =>
    match p.call i [] s with
    | .ends (_, s) => callEach p is s
    | .traps t _ => .error (.start t)

def start (host : Host η) (m : Module) (state : η) : Except InstantiationError (Instance η) := do
  let imports ← m.imports.mapM (resolve host)
  let types := m.functionTypes
  let p : Program η := ⟨m, imports, m.functions.map (·.stackUse types)⟩
  let s ← m.segments.foldlM writeSegment (initialStore m state)
  return ⟨p, ← callEach p m.starts s⟩

/-- The memory that the module shows, an empty one if it shows none. -/
def memory (i : Instance η) : Memory := (i.program.view i.store).memory.getD (.zeros 0)

def hasFunction (i : Instance η) (name : String) : Bool :=
  (i.program.module.exportedFunction? name).isSome

def write? (i : Instance η) (offset : Nat) (bs : Bytes) : Option (Instance η) :=
  (i.memory.write? offset bs).map fun m =>
    { i with store := i.program.update i.store ⟨some m, i.store.host⟩ }

end Instance

end OpcodeConformance.Wasm
