import OpcodeConformance.Wasm.Text.Token

namespace OpcodeConformance.Wasm.Text

namespace Number

def digit? (base : Nat) (c : Char) : Option Nat := (Piece.digit? c).filter (· < base)

def extend (base : Nat) : Nat → List Char → Option Nat
  | n, [] => some n
  | n, '_' :: c :: cs => do extend base (n * base + (← digit? base c)) cs
  | n, c :: cs => do extend base (n * base + (← digit? base c)) cs

def digits? (base : Nat) : List Char → Option Nat
  | [] => none
  | c :: cs => do extend base (← digit? base c) cs

def natural? : List Char → Option Nat
  | '0' :: 'x' :: cs => digits? 16 cs
  | cs => digits? 10 cs

def integer? : List Char → Option Int
  | '-' :: cs => (natural? cs).map fun n => -(n : Int)
  | '+' :: cs => (natural? cs).map Int.ofNat
  | cs => (natural? cs).map Int.ofNat

def positive? : List Char → Option Nat
  | '+' :: cs => natural? cs
  | cs => natural? cs

/-- A number from 0 to `2 ^ width - 1`. -/
def index? (width : Nat) (w : List Char) : Option Nat := (positive? w).filter (· < Nat.pow 2 width)

/-- A number that is a signed or an unsigned word of `width` bits. -/
def word? (width : Nat) (w : List Char) : Option Int :=
  (integer? w).filter fun n => -(Nat.pow 2 (width - 1) : Int) ≤ n ∧ n < (Nat.pow 2 width : Int)

/-- A format of floating point numbers: the bits of a fraction, and the exponent of the greatest
numbers. -/
structure FloatFormat where
  fractionBits : Nat
  greatestExponent : Nat

namespace FloatFormat

def single : FloatFormat := ⟨23, 127⟩
def double : FloatFormat := ⟨52, 1023⟩

/-- The least magnitude that is rounded to infinity: half a step behind the greatest number. -/
def overflow (f : FloatFormat) : Nat :=
  (Nat.pow 2 (f.fractionBits + 2) - 1) * Nat.pow 2 (f.greatestExponent - f.fractionBits - 1)

def isPayload (f : FloatFormat) (cs : List Char) : Bool :=
  (digits? 16 cs).any fun n => 0 < n && n < Nat.pow 2 f.fractionBits

end FloatFormat

structure Scaled where
  significand : Nat
  radix : Nat
  exponent : Int

namespace Scaled

/-- Whether the magnitude is below a limit of at most 1024 bits. Exponents further away than the
limit and the bits of the significand reach make no difference. -/
def isBelow (limit : Nat) (x : Scaled) : Bool :=
  if x.significand = 0 then true
  else if 0 ≤ x.exponent then
    x.significand * Nat.pow x.radix (min x.exponent.toNat 1024) < limit
  else
    let bits := x.significand.log2 + 1
    x.significand < limit * Nat.pow x.radix (min (-x.exponent).toNat bits)

end Scaled

def exponent? (cs : List Char) : Option Int :=
  match cs with
  | [] => some 0
  | _ :: '-' :: cs => (digits? 10 cs).map fun n => -(n : Int)
  | _ :: '+' :: cs => (digits? 10 cs).map Int.ofNat
  | _ :: cs => (digits? 10 cs).map Int.ofNat

/-- A number with digits behind a point and an exponent, both optional. Each digit behind the point
counts for `step` powers of the radix. -/
def scaled? (base radix step : Nat) (isMark : Char → Bool) (cs : List Char) : Option Scaled := do
  let mantissa := cs.takeWhile fun c => !isMark c
  let whole := mantissa.takeWhile (· ≠ '.')
  let places := (mantissa.dropWhile (· ≠ '.')).drop 1
  let n ← digits? base whole
  let e ← exponent? (cs.dropWhile fun c => !isMark c)
  if places.isEmpty then return ⟨n, radix, e⟩
  else
    let _ ← digits? base places
    let count := places.countP (· ≠ '_')
    return ⟨← extend base n places, radix, e - (step * count : Nat)⟩

def isDecimalMark (c : Char) : Bool := c = 'e' || c = 'E'
def isHexMark (c : Char) : Bool := c = 'p' || c = 'P'

def isExponent (e : Int) : Bool := Int32.minValue.toInt ≤ e && e ≤ Int32.maxValue.toInt

/-- The exponents of hexadecimal numbers are words of 32 bits, except that those of zero can be
anything. This holds for the exponent that is written and for that of the uppermost bit. -/
def hasHexExponents (x : Scaled) (cs : List Char) : Bool :=
  x.significand = 0 ||
    ((exponent? (cs.dropWhile fun c => !isHexMark c)).any isExponent
      && isExponent (x.significand.log2 + x.exponent))

def unsigned : List Char → List Char
  | '-' :: cs => cs
  | '+' :: cs => cs
  | cs => cs

/-- Whether the text is a floating point number of the format. A number that would be rounded to
infinity is none. -/
def isFloat (f : FloatFormat) (w : List Char) : Bool :=
  match unsigned w with
  | 'i' :: cs => cs = ['n', 'f']
  | 'n' :: cs =>
    match cs with
    | 'a' :: 'n' :: ':' :: '0' :: 'x' :: cs => f.isPayload cs
    | _ => cs = ['a', 'n']
  | '0' :: 'x' :: cs =>
    (scaled? 16 2 4 isHexMark cs).any fun x => x.isBelow f.overflow && hasHexExponents x cs
  | cs => (scaled? 10 10 1 isDecimalMark cs).any (·.isBelow f.overflow)

end Number

end OpcodeConformance.Wasm.Text
