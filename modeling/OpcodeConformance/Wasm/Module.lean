import OpcodeConformance.Bytes
import OpcodeConformance.Wasm.Code

namespace OpcodeConformance.Wasm

structure Function where
  type : FunctionType
  locals : List ValueType
  body : Code
  deriving DecidableEq, Repr

def pageSize : Nat := 65536

def greatestPages : Nat := 65536

structure Limits where
  least : Nat
  greatest : Option Nat
  /-- Whether addresses are numbers of 64 bits. -/
  isWide : Bool
  /-- Whether several threads can use the memory. -/
  isShared : Bool
  deriving DecidableEq, Repr

structure GlobalType where
  value : ValueType
  isMutable : Bool
  deriving DecidableEq, Repr

structure Global where
  type : GlobalType
  initial : Code
  deriving DecidableEq, Repr

inductive ImportType where
  | function (t : FunctionType)
  | memory (l : Limits)
  | global (t : GlobalType)
  deriving DecidableEq, Repr

structure Import where
  module : String
  name : String
  type : ImportType
  deriving DecidableEq, Repr

inductive Target where
  | function (i : Nat)
  | memory (i : Nat)
  | global (i : Nat)
  deriving DecidableEq, Repr

structure Export where
  name : String
  target : Target
  deriving DecidableEq, Repr

/-- Bytes that are written into a memory when the module is instantiated. -/
structure Segment where
  memory : Nat
  offset : Code
  content : Bytes
  deriving DecidableEq, Repr

structure Module where
  imports : List Import
  functions : List Function
  memories : List Limits
  globals : List Global
  exports : List Export
  starts : List Nat
  segments : List Segment
  deriving DecidableEq, Repr

def Code.constant? : Code → Option Value
  | .op (.const v) .done => some v
  | _ => none

def Global.start (g : Global) : Value := g.initial.constant?.getD (.zero g.type.value)

namespace Module

def empty : Module := ⟨[], [], [], [], [], [], []⟩

instance : Inhabited Module := ⟨empty⟩

def importedFunctions (m : Module) : List FunctionType :=
  m.imports.filterMap fun i => match i.type with
    | .function t => some t
    | _ => none

def importedMemories (m : Module) : List Limits :=
  m.imports.filterMap fun i => match i.type with
    | .memory l => some l
    | _ => none

def importedGlobals (m : Module) : List GlobalType :=
  m.imports.filterMap fun i => match i.type with
    | .global t => some t
    | _ => none

/-- The types of all functions in the order of their numbers, the imported ones first. -/
def functionTypes (m : Module) : List FunctionType :=
  m.importedFunctions ++ m.functions.map (·.type)

def memoryLimits (m : Module) : List Limits := m.importedMemories ++ m.memories

def globalTypes (m : Module) : List GlobalType := m.importedGlobals ++ m.globals.map (·.type)

def target? (m : Module) (name : String) : Option Target :=
  (m.exports.find? (·.name = name)).map (·.target)

def exportedFunction? (m : Module) (name : String) : Option Nat :=
  match m.target? name with
  | some (.function i) => some i
  | _ => none

def exportedMemory? (m : Module) (name : String) : Option Nat :=
  match m.target? name with
  | some (.memory i) => some i
  | _ => none

end Module

end OpcodeConformance.Wasm
