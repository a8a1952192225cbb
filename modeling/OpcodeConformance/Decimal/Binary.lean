namespace OpcodeConformance.Decimal

/-- The magnitude `mantissa * 2 ^ exponent` of a binary64 number, and its sign. -/
structure Binary where
  negative : Bool
  mantissa : Nat
  exponent : Int
  deriving DecidableEq, Repr

namespace Binary

def ofBits (bits : UInt64) : Binary :=
  let b := bits.toNat
  let fraction : Nat := b % Nat.pow 2 52
  let biased : Nat := b / Nat.pow 2 52 % Nat.pow 2 11
  { negative := b / Nat.pow 2 63 = 1
    mantissa := if biased = 0 then fraction else fraction + Nat.pow 2 52
    exponent := (if biased = 0 then 1 else (biased : Int)) - 1075 }

def scaled (x : Binary) (places : Nat) : Nat × Nat :=
  (x.mantissa * Nat.pow 2 x.exponent.toNat * Nat.pow 10 places, Nat.pow 2 (-x.exponent).toNat)

end Binary

/-- The integer nearest to `num / den`; a half goes to the even neighbour. -/
def roundDiv (num den : Nat) : Nat :=
  let q := num / den
  let r := num % den
  if 2 * r < den then q
  else if den < 2 * r then q + 1
  else if q % 2 = 0 then q else q + 1

end OpcodeConformance.Decimal
