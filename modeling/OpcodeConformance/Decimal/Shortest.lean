import OpcodeConformance.Decimal
import OpcodeConformance.Decimal.Binary

namespace OpcodeConformance.Decimal

structure Scientific where
  coefficient : Nat
  exponent : Int
  deriving DecidableEq, Repr

namespace Shortest

/-- Four times the magnitude and the ends of the interval of numbers that round to it, in units of
`2 ^ (exponent - 2)`. Below a power of two the neighbouring numbers are closer. -/
def bounds (x : Binary) : Nat × Nat × Nat :=
  let narrow := x.mantissa = Nat.pow 2 52 ∧ -1074 < x.exponent
  (4 * x.mantissa - (if narrow then 1 else 2), 4 * x.mantissa, 4 * x.mantissa + 2)

/-- A grid of step `10 ^ step` against units of `2 ^ unit`: the integers `g` and `u` with
`10 ^ step / 2 ^ unit = g / u`. -/
def ratio (step unit : Int) : Nat × Nat :=
  (Nat.pow 10 step.toNat * Nat.pow 2 (-unit).toNat, Nat.pow 10 (-step).toNat * Nat.pow 2 unit.toNat)

def onGrid (x : Binary) (step : Int) : Option Scientific :=
  let (low, value, high) := bounds x
  let (g, u) := ratio step (x.exponent - 2)
  let inside (k : Nat) : Bool :=
    if x.mantissa % 2 = 0 then low * u ≤ k * g ∧ k * g ≤ high * u
    else low * u < k * g ∧ k * g < high * u
  let below := value * u / g
  let above := below + 1
  match inside below, inside above with
  | true, true => some ⟨roundDiv (value * u) g, step⟩
  | true, false => some ⟨below, step⟩
  | false, true => some ⟨above, step⟩
  | false, false => none

/-- The least exponent `k` with `magnitude < 10 ^ k`. -/
def magnitude (x : Binary) : Int :=
  let (num, den) := x.scaled 0
  if den ≤ num then (digits (num / den)).length
  else 1 - (((List.range 400).find? fun k => den ≤ num * Nat.pow 10 k).getD 0 : Nat)

def strip : Nat → Scientific → Scientific
  | 0, d => d
  | n + 1, d =>
    if d.coefficient % 10 = 0 ∧ d.coefficient ≠ 0 then
      strip n ⟨d.coefficient / 10, d.exponent + 1⟩
    else d

end Shortest

/-- The shortest decimal number that reads back as `x`. On each grid only the two neighbours of the
value can be the nearest points that do; the coarsest grid with such a point is taken. -/
def shortest (x : Binary) : Scientific :=
  if x.mantissa = 0 then ⟨0, 0⟩
  else
    let k := Shortest.magnitude x
    let found := (List.range 18).findSome? fun n : Nat => Shortest.onGrid x (k - n)
    Shortest.strip 20 (found.getD ⟨0, 0⟩)

/-- Which decimal exponents are written without an exponent mark. -/
structure Layout where
  least : Int
  greatest : Int

def Layout.write (layout : Layout) (d : Scientific) : List Char :=
  let ds := digits d.coefficient
  let e : Int := d.exponent + ds.length - 1
  if layout.least ≤ e ∧ e ≤ layout.greatest then
    if 0 ≤ d.exponent then ds ++ List.replicate d.exponent.toNat '0' ++ ['.', '0']
    else if 0 ≤ e then ds.take (e.toNat + 1) ++ '.' :: ds.drop (e.toNat + 1)
    else '0' :: '.' :: (List.replicate (-e - 1).toNat '0' ++ ds)
  else
    let mark := if e < 0 then ['e', '-'] else ['e', '+']
    let fraction := ds.drop 1
    ds.take 1 ++ (if fraction.isEmpty then [] else '.' :: fraction) ++ mark ++ digits e.natAbs

/-- Numbers from `0.00001` up to seventeen digits are written without an exponent. -/
def plain : Layout := ⟨-5, 15⟩

def ofBits (bits : UInt64) : String :=
  let x := Binary.ofBits bits
  let text := plain.write (shortest x)
  String.ofList (if x.negative then '-' :: text else text)

end OpcodeConformance.Decimal
