import OpcodeConformance.Case
import OpcodeConformance.Word

namespace OpcodeConformance

inductive Field where
  | setup
  | execution
  | stackPointer
  | stack (index : Nat)
  | memory (offset : Nat)
  | returned
  | gasUsed
  deriving DecidableEq, Repr

def Field.text : Field → String
  | setup => "Setup"
  | execution => "Execution"
  | stackPointer => "StackPointer"
  | stack index => s!"Stack({Decimal.ofNat index})"
  | memory offset => s!"Memory({Decimal.ofNat offset})"
  | returned => "Return"
  | gasUsed => "GasUsed"

structure Failure where
  file : String
  /-- The label of the case; empty if the failure is about the whole file. -/
  label : String
  field : Field
  message : String
  deriving DecidableEq, Repr

def Failure.text (f : Failure) : String :=
  let label := if f.label.isEmpty then "" else f.label ++ " "
  f.file ++ ": " ++ label ++ f.field.text ++ ": " ++ f.message

/-- What a run leaves to be looked at, apart from the memory. -/
structure Observation where
  stackPointer : Option Int64
  returned : Option Bytes
  gasUsed : UInt64
  deriving DecidableEq, Repr

namespace Verdict

/-- What is wrong with a returned stack pointer. It has to point to a word of the stack. -/
def stackPointerProblem? : Option Int64 → Option String
  | none => some "not a number: the opcode must return the stack pointer"
  | some p =>
    if p.toInt < 0 then some s!"negative: {Decimal.ofInt p.toInt}"
    else if p.toInt % Word.size ≠ 0 then some s!"not 32-aligned: {Decimal.ofInt p.toInt}"
    else none

def difference (expected actual : Bytes) : String :=
  s!"expected {Hex.encode expected}, got {Hex.encode actual}"

variable {κ ω : Type}

/-- What is wrong with the word at an address. The memory is read only if the expectation is a
word. -/
def wordProblem? (m : Machine κ ω) (expected : String) (address : Nat) :
    StateM ω (Option String) := fun s =>
  match Word.ofHex expected Word.size with
  | .error e => (some e.message, s)
  | .ok expected =>
    match Word.read m address Word.size s with
    | (.error e, s) => (some e.message, s)
    | (.ok actual, s) => (if actual = expected then none else some (difference expected actual), s)

def stackProblems (m : Machine κ ω) : Nat → List String → StateM ω (List (Field × String))
  | _, [] => return []
  | index, w :: ws => do
    let p ← wordProblem? m w (index * Word.size)
    let ps ← stackProblems m (index + 1) ws
    return (p.map (Field.stack index, ·)).toList ++ ps

def memoryProblems (m : Machine κ ω) (base : Nat) :
    List (Nat × String) → StateM ω (List (Field × String))
  | [] => return []
  | (offset, w) :: ws => do
    let p ← wordProblem? m w (offset + base)
    let ps ← memoryProblems m base ws
    return (p.map (Field.memory offset, ·)).toList ++ ps

def returnedProblem? : Option String → Option Bytes → Option String
  | none, _ => none
  | some expected, actual =>
    match Word.bytesOfHex expected, actual with
    | .error e, _ => some e.message
    | .ok expected, none => some s!"expected {Hex.encode expected}, got nothing"
    | .ok expected, some actual =>
      if expected = actual then none else some (difference expected actual)

def gasProblem? : Option UInt64 → UInt64 → Option String
  | none, _ => none
  | some expected, actual =>
    if expected = actual then none
    else some s!"expected {Decimal.ofNat expected.toNat}, got {Decimal.ofNat actual.toNat}"

/-- Everything that is wrong, in the order in which it is looked at. -/
def problems (m : Machine κ ω) (base : Nat) (c : Case) (o : Observation) :
    StateM ω (List (Field × String)) := do
  let stack ← stackProblems m 0 c.output.stack
  let memory ← memoryProblems m base c.output.memory.entries
  return ((stackPointerProblem? o.stackPointer).map (Field.stackPointer, ·)).toList
    ++ stack ++ memory
    ++ ((returnedProblem? c.output.returned o.returned).map (Field.returned, ·)).toList
    ++ ((gasProblem? c.output.gasUsed o.gasUsed).map (Field.gasUsed, ·)).toList

def failure (file : String) (c : Case) (p : Field × String) : Failure :=
  ⟨file, c.label, p.1, p.2⟩

def check (m : Machine κ ω) (base : Nat) (file : String) (c : Case) (o : Observation) :
    StateM ω (List Failure) := do
  return (← problems m base c o).map (failure file c)

end Verdict

end OpcodeConformance
