import OpcodeConformance.Bytes
import OpcodeConformance.Text.Blank

namespace OpcodeConformance

/-- Why a text is not the hex form of any byte string. -/
inductive HexProblem where
  | oddDigits
  /-- `byte` is no digit; `position` counts the bytes of the UTF-8 form before it. -/
  | badDigit (byte : UInt8) (position : Nat)
  deriving DecidableEq, Repr

namespace Hex

/-- The text without its mark. Only one mark is removed. -/
def stripMark : List Char → List Char
  | '0' :: 'x' :: ds => ds
  | '0' :: 'X' :: ds => ds
  | ds => ds

def digits (s : String) : List Char := stripMark (Text.trim s.toList)

def digitValue? (b : UInt8) : Option UInt8 :=
  if 48 ≤ b ∧ b ≤ 57 then some (b - 48)
  else if 97 ≤ b ∧ b ≤ 102 then some (b - 87)
  else if 65 ≤ b ∧ b ≤ 70 then some (b - 55)
  else none

def digitValue (position : Nat) (b : UInt8) : Except HexProblem UInt8 :=
  match digitValue? b with
  | some v => .ok v
  | none => .error (.badDigit b position)

/-- Reads two digits a byte from left to right; `position` is that of the first digit. -/
def decodePairs (position : Nat) : Bytes → Except HexProblem Bytes
  | high :: low :: ds => do
    let h ← digitValue position high
    let l ← digitValue (position + 1) low
    let rest ← decodePairs (position + 2) ds
    return (h * 16 + l) :: rest
  | [_] => .error .oddDigits
  | [] => .ok []

def decodeEven (ds : Bytes) : Except HexProblem Bytes :=
  if ds.length % 2 = 1 then .error .oddDigits else decodePairs 0 ds

/-- The bytes that `s` spells in base 16. An odd number of digits is read as if a zero stood in front
of them. -/
def decode (s : String) : Except HexProblem Bytes :=
  let ds := Bytes.ofChars (digits s)
  decodeEven (if ds.length % 2 = 1 then 48 :: ds else ds)

def digitChar (v : UInt8) : Char := Char.ofNat (if v < 10 then 48 + v.toNat else 87 + v.toNat)

def pair (b : UInt8) : List Char := [digitChar (b / 16), digitChar (b % 16)]

def encode (bs : Bytes) : String := String.ofList ('0' :: 'x' :: bs.flatMap pair)

end Hex

end OpcodeConformance
