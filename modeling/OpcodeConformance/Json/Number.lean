import OpcodeConformance.Bytes
import OpcodeConformance.Json.Problem

namespace OpcodeConformance.Json

inductive Number where
  | integer (n : Int)
  | float (bits : UInt64)
  deriving DecidableEq, Repr

namespace Number

def isDigit (b : UInt8) : Bool := 48 ≤ b && b ≤ 57

structure Parts where
  negative : Bool
  whole : Bytes
  fraction : Option Bytes
  exponent : Option Int
  deriving DecidableEq, Repr

/-- At least one digit, and what follows the digits. `atEnd` is the problem of a text that ends
before the first digit. -/
def digitRun (atEnd : Problem) : Bytes → Except Problem (Bytes × Bytes)
  | [] => .error atEnd
  | b :: bs =>
    if isDigit b then .ok (b :: bs.takeWhile isDigit, bs.dropWhile isDigit)
    else .error .malformed

def wholePart (atEnd : Problem) (bs : Bytes) : Except Problem (Bytes × Bytes) := do
  let (ds, rest) ← digitRun atEnd bs
  if 1 < ds.length ∧ ds.head? = some 48 then .error .malformed
  else .ok (ds, rest)

def fractionPart (atEnd : Problem) : Bytes → Except Problem (Option Bytes × Bytes)
  | 46 :: bs => do
    let (ds, rest) ← digitRun atEnd bs
    return (some ds, rest)
  | bs => .ok (none, bs)

def value (ds : Bytes) : Nat := ds.foldl (fun n d => 10 * n + (d.toNat - 48)) 0

def signedExponent (atEnd : Problem) : Bytes → Except Problem (Int × Bytes)
  | 43 :: bs => do
    let (ds, rest) ← digitRun atEnd bs
    return (value ds, rest)
  | 45 :: bs => do
    let (ds, rest) ← digitRun atEnd bs
    return (-(value ds : Int), rest)
  | bs => do
    let (ds, rest) ← digitRun atEnd bs
    return (value ds, rest)

def exponentPart (atEnd : Problem) : Bytes → Except Problem (Option Int × Bytes)
  | b :: bs =>
    if b = 101 ∨ b = 69 then do
      let (e, rest) ← signedExponent atEnd bs
      return (some e, rest)
    else .ok (none, b :: bs)
  | [] => .ok (none, [])

def parts (atEnd : Problem) (bs : Bytes) : Except Problem (Parts × Bytes) := do
  let negative := bs.head? = some 45
  let (whole, rest) ← wholePart atEnd (if negative then bs.drop 1 else bs)
  let (fraction, rest) ← fractionPart atEnd rest
  let (exponent, rest) ← exponentPart atEnd rest
  return (⟨negative, whole, fraction, exponent⟩, rest)

/-- Appends digits to a number as long as it fits 64 bits; also the digits that are left over. -/
def appendDigits (n : Nat) : Bytes → Nat × Bytes
  | [] => (n, [])
  | d :: ds =>
    if 10 * n + (d.toNat - 48) < UInt64.size then appendDigits (10 * n + (d.toNat - 48)) ds
    else (n, d :: ds)

/-- `10 ^ n` in binary64, for `n` up to 308. -/
def powerOfTen (n : Nat) : Float := Float.ofScientific 1 false n

/-- `significand * 10 ^ exponent` in binary64; nothing if it is out of range. -/
def scale (significand : Nat) (exponent : Int) : Option Float :=
  let x := Float.ofNat significand
  if significand = 0 then some x
  else if 308 < exponent then none
  else if 0 ≤ exponent then
    let y := x * powerOfTen exponent.toNat
    if y.isInf then none else some y
  else if -308 ≤ exponent then some (x / powerOfTen (-exponent).toNat)
  else if -616 ≤ exponent then
    some (x / powerOfTen 308 / powerOfTen (-(exponent + 308)).toNat)
  else some 0

/-- The number as binary64: its leading digits, as many as fit 64 bits, make an integer, which is
multiplied or divided once by a power of ten. -/
def Parts.float? (p : Parts) : Option UInt64 := do
  let (n, dropped) := appendDigits 0 p.whole
  let (m, unused) := appendDigits n (p.fraction.getD [])
  let appended := (p.fraction.getD []).length - unused.length
  let x ← scale m (p.exponent.getD 0 + dropped.length - appended)
  return (if p.negative then -x else x).toBits

def Parts.number? (p : Parts) : Option Number :=
  let n := value p.whole
  if p.fraction.isNone ∧ p.exponent.isNone ∧ ¬p.negative ∧ n < UInt64.size then
    some (.integer n)
  else if p.fraction.isNone ∧ p.exponent.isNone ∧ p.negative ∧ 0 < n ∧ n ≤ UInt64.size / 2 then
    some (.integer (-n))
  else p.float?.map .float

def read (bs : Bytes) : Except Problem (Number × Bytes) := do
  let (p, rest) ← parts .truncated bs
  match p.number? with
  | some n => .ok (n, rest)
  | none => .error .malformed

def starts (b : UInt8) : Bool := b = 45 || isDigit b

def found : Number → Found
  | integer n => .integer n
  | float bits => .float bits

end Number

end OpcodeConformance.Json
