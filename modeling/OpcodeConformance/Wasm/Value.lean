namespace OpcodeConformance.Wasm

inductive ValueType where
  | i32
  | i64
  | f32
  | f64
  | v128
  | funcref
  | externref
  deriving DecidableEq, Repr

def ValueType.name : ValueType → String
  | i32 => "i32"
  | i64 => "i64"
  | f32 => "f32"
  | f64 => "f64"
  | v128 => "v128"
  | funcref => "(ref null func)"
  | externref => "(ref null extern)"

/-- Whether values of the type stand in the registers for floating point numbers. -/
def ValueType.isFloat : ValueType → Bool
  | f32 | f64 | v128 => true
  | _ => false

def ValueType.words : ValueType → Nat
  | v128 => 2
  | _ => 1

structure FunctionType where
  params : List ValueType
  results : List ValueType
  deriving DecidableEq, Repr

/-- The integers are computed with. Of the other types only the type of a value is kept, because no
instruction covered here looks at more. -/
inductive Value where
  | i32 (w : UInt32)
  | i64 (w : UInt64)
  | f32
  | f64
  | v128
  | funcref
  | externref
  deriving DecidableEq, Repr

namespace Value

def type : Value → ValueType
  | i32 _ => .i32
  | i64 _ => .i64
  | f32 => .f32
  | f64 => .f64
  | v128 => .v128
  | funcref => .funcref
  | externref => .externref

def zero : ValueType → Value
  | .i32 => i32 0
  | .i64 => i64 0
  | .f32 => f32
  | .f64 => f64
  | .v128 => v128
  | .funcref => funcref
  | .externref => externref

def ofBool (b : Bool) : Value := i32 (if b then 1 else 0)

/-- An integer value, read as a signed number. -/
def signed? : Value → Option Int64
  | i32 w => some (Int64.ofInt w.toInt32.toInt)
  | i64 w => some w.toInt64
  | _ => none

end Value

end OpcodeConformance.Wasm
