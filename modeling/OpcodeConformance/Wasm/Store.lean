import OpcodeConformance.Memory
import OpcodeConformance.Wasm.Module

namespace OpcodeConformance.Wasm

inductive Trap where
  | unreachable
  | outOfBounds
  | divideByZero
  | host (reason : String)
  /-- Calls are nested too deeply, or a loop goes on for too long. -/
  | exhausted
  /-- An instruction has not got the operands that it needs. No well-typed code does this. -/
  | stuck
  deriving DecidableEq, Repr

def Trap.message : Trap → String
  | unreachable => "wasm trap: wasm `unreachable` instruction executed"
  | outOfBounds => "wasm trap: out of bounds memory access"
  | divideByZero => "wasm trap: integer divide by zero"
  | host reason => reason
  | exhausted => "wasm trap: call stack exhausted"
  | stuck => "wasm trap: operands missing"

structure Store (η : Type) where
  memories : List Memory
  globals : List Value
  host : η

namespace Store

variable {η : Type}

def load? (s : Store η) (a : Access) (memory address : Nat) : Option Value := do
  let n := Bytes.littleValue (← (← s.memories[memory]?).read? address a.width)
  return match a with
    | .word64 => .i64 (UInt64.ofNat n)
    | _ => .i32 (UInt32.ofNat n)

/-- The low bytes of a value that a store writes; nothing if it has another type. -/
def storedBytes? (a : Access) (v : Value) : Option Bytes :=
  match a, v with
  | .word64, .i64 w => some (Bytes.little 8 w.toNat)
  | .word32, .i32 w => some (Bytes.little 4 w.toNat)
  | .byte, .i32 w => some (Bytes.little 1 w.toNat)
  | _, _ => none

def withMemory (s : Store η) (memory : Nat) (m : Memory) : Store η :=
  { s with memories := s.memories.set memory m }

def write? (s : Store η) (memory address : Nat) (bs : Bytes) : Option (Store η) := do
  return s.withMemory memory (← (← s.memories[memory]?).write? address bs)

end Store

/-- What a function of the host works on: its own state, and the memory of the module that calls it
if that module shows one. -/
structure HostView (η : Type) where
  memory : Option Memory
  host : η

/-- A function that the host provides. If it fails, it tells the reason. -/
structure HostFunction (η : Type) where
  type : FunctionType
  run : List Value → HostView η → Except String (List Value × HostView η)

structure Program (η : Type) where
  module : Module
  imports : List (HostFunction η)
  stackUses : List Nat

namespace Program

variable {η : Type}

def memoryName : String := "memory"

/-- The number of the memory that the module shows to the host. A shared memory is not shown. -/
def shown? (p : Program η) : Option Nat :=
  (p.module.exportedMemory? memoryName).filter fun i =>
    p.module.memoryLimits[i]?.any (!·.isShared)

def pageLimit (p : Program η) (memory : Nat) : Nat :=
  match p.module.memories[memory]? with
  | some l => l.greatest.getD greatestPages
  | none => 0

def functionType? (p : Program η) (i : Nat) : Option FunctionType := p.module.functionTypes[i]?

def view (p : Program η) (s : Store η) : HostView η :=
  ⟨p.shown?.bind fun i => s.memories[i]?, s.host⟩

def update (p : Program η) (s : Store η) (v : HostView η) : Store η :=
  let s := { s with host := v.host }
  match p.shown?, v.memory with
  | some i, some m => s.withMemory i m
  | _, _ => s

end Program

end OpcodeConformance.Wasm
