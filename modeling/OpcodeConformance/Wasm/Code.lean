import OpcodeConformance.Wasm.Value

namespace OpcodeConformance.Wasm

/-- Instructions that take integers from the stack and leave one. -/
inductive Numeric where
  | i32Add | i32Sub | i32Mul | i32DivU | i32And | i32Or | i32Eq | i32GeU | i32Eqz
  | i64Add | i64Mul | i64Eq | i64Ne | i64LtU | i64ExtendI32U | i64ExtendI32S
  deriving DecidableEq, Repr

/-- What a load or store moves: four bytes or one byte of an `i32`, or eight bytes of an `i64`. -/
inductive Access where
  | word32
  | byte
  | word64
  deriving DecidableEq, Repr

namespace Access

def width : Access → Nat
  | word32 => 4
  | byte => 1
  | word64 => 8

def type : Access → ValueType
  | word32 => .i32
  | byte => .i32
  | word64 => .i64

end Access

/-- Where a load or store takes place: in which memory, how far behind the address that it is given,
and of which number the place is promised to be a multiple. -/
structure Location where
  memory : Nat
  offset : Nat
  alignment : Nat
  deriving DecidableEq, Repr

/-- Instructions without code inside them, as far as they are covered. Functions, variables, memories
and labels are given by number; a label counts the enclosing blocks from the inside. -/
inductive Op where
  | unreachable
  | drop
  | const (v : Value)
  | localGet (i : Nat)
  | localSet (i : Nat)
  | globalGet (i : Nat)
  | globalSet (i : Nat)
  | call (f : Nat)
  | branch (label : Nat)
  | branchIf (label : Nat)
  | numeric (n : Numeric)
  | load (a : Access) (place : Location)
  | store (a : Access) (place : Location)
  | memorySize (memory : Nat)
  | memoryGrow (memory : Nat)
  /-- Stands where the beginnings and ends of blocks do not fit together. Code with it is never
  well-typed. -/
  | unpaired
  deriving DecidableEq, Repr

/-- A sequence of instructions. Blocks, loops and choices take the parameters of their types from
the stack and leave the results. -/
inductive Code where
  | done
  | op (o : Op) (next : Code)
  | block (type : FunctionType) (body next : Code)
  | loop (type : FunctionType) (body next : Code)
  | choice (type : FunctionType) (yes no next : Code)
  deriving DecidableEq, Repr

end OpcodeConformance.Wasm
