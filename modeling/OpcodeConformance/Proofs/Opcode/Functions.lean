import OpcodeConformance.Proofs.Opcode.Module

namespace OpcodeConformance

open Wasm

namespace Opcode

def lower (bytes : UInt32) : Code :=
  .ops [.globalGet 0, .const (.i32 bytes), .numeric .i32Sub, .globalSet 0, .globalGet 0] .done

variable {η : Type} (p : Program η) (call : Nat → List Value → Store η → Call η)

theorem run_lower (bytes sp : UInt32) (memories : List Memory) (host : η)
    (locals stack : List Value) :
    run p call (lower bytes) ⟨⟨memories, [.i32 sp], host⟩, locals, stack⟩ =
      .ends (.next, ⟨⟨memories, [.i32 (sp - bytes)], host⟩, locals,
        .i32 (sp - bytes) :: stack⟩) := rfl

end Opcode

namespace Popping

/-- Removes the uppermost word. -/
def function : Function := ⟨⟨[], [.i32]⟩, [], .ops [.const (.i64 2), .call 0] (Opcode.lower 32)⟩

end Popping

namespace Storing

def copy (offset : Nat) (next : Code) : Code :=
  .ops [.localGet 0, .localGet 1, .load .word64 ⟨0, offset, 8⟩, .store .word64 ⟨0, offset, 8⟩] next

/-- Stores the second word at the offset that the uppermost word gives. -/
def body : Code :=
  .ops [.const (.i64 3), .call 0, .globalGet 0, .load .word32 ⟨0, 0, 4⟩, .const (.i32 33832),
    .numeric .i32Add, .localSet 0, .globalGet 0, .const (.i32 32), .numeric .i32Sub, .localSet 1]
    (copy 0 (copy 8 (copy 16 (copy 24 (Opcode.lower 64)))))

def function : Function := ⟨⟨[], [.i32]⟩, [.i32, .i32], body⟩

end Storing

namespace Returning

def stageImport : String × FunctionType := ("return", ⟨[.i32, .i32], []⟩)

/-- Stages as many bytes as the second word says, from the offset that the uppermost word gives. -/
def body : Code :=
  .ops [.globalGet 0, .load .word32 ⟨0, 0, 4⟩, .const (.i32 33832), .numeric .i32Add,
    .globalGet 0, .const (.i32 32), .numeric .i32Sub, .load .word32 ⟨0, 0, 4⟩, .call 0]
    (Opcode.lower 64)

def function : Function := ⟨⟨[], [.i32]⟩, [], body⟩

end Returning

namespace Pushing

def callerImport : String × FunctionType := ("getCaller", ⟨[.i32], []⟩)

def sizeImport : String × FunctionType := ("getCallDataSize", ⟨[], [.i32]⟩)

/-- Pushes the word that is written above the stack, where the local points to. -/
def body (write : List Op) : Code :=
  .ops [.const (.i64 2), .call 0, .globalGet 0, .const (.i32 32), .numeric .i32Add, .localSet 0]
    (.ops write (.ops [.localGet 0, .globalSet 0, .globalGet 0] .done))

def function (write : List Op) : Function := ⟨⟨[], [.i32]⟩, [.i32], body write⟩

/-- Fills bytes from an offset on with zeros, by one store for each of the accesses. -/
def fill (offset : Nat) : List Access → List Op
  | [] => []
  | a :: rest =>
    [.localGet 0, .const (a.loaded 0), .store a ⟨0, offset, a.width⟩] ++
      fill (offset + a.width) rest

/-- The address comes in the order of texts, and a function of the module reverses it. -/
def writeCaller : List Op :=
  [.localGet 0, .call 1, .localGet 0, .call 2] ++ fill 20 [.word32, .word64]

def writeSize : List Op :=
  [.localGet 0, .call 1, .numeric .i64ExtendI32U, .store .word64 ⟨0, 0, 8⟩] ++
    fill 8 [.word64, .word64, .word64]

end Pushing

end OpcodeConformance
