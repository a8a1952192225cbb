import OpcodeConformance.Contract.Fault
import OpcodeConformance.Wasm.Instance

namespace OpcodeConformance.Call

open Wasm

def argument (name : String) (type : ValueType) (x : Int64) : Except Fault Value :=
  match type with
  | .i32 =>
    if Int32.minValue.toInt ≤ x.toInt ∧ x.toInt ≤ Int32.maxValue.toInt then
      .ok (.i32 (UInt32.ofInt x.toInt))
    else .error (.paramOutOfRange name x)
  | .i64 => .ok (.i64 x.toUInt64)
  | type => .error (.unsupportedParam name type.name)

def arguments (name : String) : List ValueType → List Int64 → Except Fault (List Value)
  | t :: types, x :: xs => do return (← argument name t x) :: (← arguments name types xs)
  | _, _ => .ok []

variable {η : Type}

def target (i : Instance η) (name : String) (params : List Int64) :
    Except Fault (Nat × List Value) := do
  let some n := i.program.module.exportedFunction? name | throw (.missingExport name)
  let some type := i.program.functionType? n | throw (.missingExport name)
  if type.params.length ≠ params.length then
    throw (.wrongParamCount name type.params.length params.length)
  return (n, ← arguments name type.params params)

/-- Calls an exported function. Its first result is given if it is an integer. -/
def run (name : String) (params : List Int64) (i : Instance η) :
    Except Fault (Option Int64) × Instance η :=
  match target i name params with
  | .error f => (.error f, i)
  | .ok (n, args) =>
    match i.program.enter n args i.store with
    | .ends (results, s) => (.ok (results.head?.bind Value.signed?), { i with store := s })
    | .traps t s => (.error (.trap t.message), { i with store := s })

def write (offset : Nat) (bs : Bytes) (i : Instance η) : Except Fault Unit × Instance η :=
  match i.write? offset bs with
  | some i => (.ok (), i)
  | none => (.error (.memoryOutOfBounds offset bs.length i.memory.size), i)

def read (offset len : Nat) (i : Instance η) : Except Fault Bytes :=
  match i.memory.read? offset len with
  | some bs => .ok bs
  | none => .error (.memoryOutOfBounds offset len i.memory.size)

end OpcodeConformance.Call
