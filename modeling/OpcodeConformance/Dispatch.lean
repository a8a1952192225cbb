import OpcodeConformance.Context
import OpcodeConformance.Word

namespace OpcodeConformance

structure PreparedInput where
  /-- The words of the stack from the bottom. -/
  stack : List Bytes
  /-- The words of the memory in ascending order of their offsets. -/
  memory : List (Nat × Bytes)
  deriving DecidableEq, Repr

def PreparedInput.ofInput (i : CaseInput) : Except HarnessError PreparedInput := do
  let stack ← i.stack.mapM (Word.ofHex · Word.size)
  let memory ← i.memory.entries.mapM fun e => do return (e.1, ← Word.ofHex e.2 Word.size)
  return ⟨stack, memory⟩

namespace Dispatch

/-- The pointer to the top of a stack with `len` words. It is negative for an empty stack. -/
def stackPointer (len : Nat) : Int64 := Int64.ofInt (((len : Int) - 1) * Word.size)

def setterName : String := "setSP"

variable {κ ω : Type}

/-- Writes the words of the stack side by side, the bottom at address zero. -/
def writeStack (m : Machine κ ω) : Nat → List Bytes → Action HarnessError ω Unit
  | _, [] => return ()
  | i, w :: ws => do
    Word.write m (i * Word.size) w
    writeStack m (i + 1) ws

def writeMemory (m : Machine κ ω) (base : Nat) : List (Nat × Bytes) → Action HarnessError ω Unit
  | [] => return ()
  | (offset, w) :: ws => do
    Word.write m (offset + base) w
    writeMemory m base ws

def execute (m : Machine κ ω) (base : Nat) (code : κ) (c : Context) (i : PreparedInput)
    (op : String) (params : List Int64) : Action HarnessError ω (Option Int64) := do
  (m.create code c.state c.account).mapError .ofFault
  (m.receive c.message).mapError .ofFault
  m.attach.mapError .ofFault
  let _ ← (m.call setterName [stackPointer i.stack.length]).mapError .ofFault
  writeStack m 0 i.stack
  writeMemory m base i.memory
  let result ← (m.call op params).mapError .ofFault
  m.settle.mapError .ofFault
  return result

end Dispatch

end OpcodeConformance
