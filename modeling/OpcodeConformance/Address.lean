import OpcodeConformance.Hex
import OpcodeConformance.Text.Quoted

namespace OpcodeConformance

namespace HexProblem

/-- A bad digit is shown as the Latin-1 character of its byte. -/
def message : HexProblem → String
  | oddDigits => "Odd number of digits"
  | badDigit byte position =>
    s!"Invalid character {Text.quotedChar (Char.ofNat byte.toNat)} at position {position}"

end HexProblem

inductive EncodingError where
  | invalidHex (reason : String)
  | invalidLength (expected actual : Nat)
  deriving DecidableEq, Repr

namespace EncodingError

def message : EncodingError → String
  | invalidHex reason => s!"invalid hex string: {reason}"
  | invalidLength expected actual => s!"invalid length: expected {expected} bytes, got {actual}"

def ofHex (p : HexProblem) : EncodingError := .invalidHex p.message

end EncodingError

/-- The bytes that `s` spells in base 16, with either parity of digits. -/
def decodeHex (s : String) : Except EncodingError Bytes :=
  (Hex.decode s).mapError EncodingError.ofHex

def addressSize : Nat := 20

structure Address where
  bytes : Bytes
  length_bytes : bytes.length = addressSize
  deriving DecidableEq, Repr

namespace Address

def zero : Address := ⟨List.replicate addressSize 0, List.length_replicate ..⟩

instance : Inhabited Address := ⟨zero⟩

def ofBytes (bs : Bytes) : Except EncodingError Address :=
  if h : bs.length = addressSize then .ok ⟨bs, h⟩
  else .error (.invalidLength addressSize bs.length)

/-- Reads an address. The digits must come in pairs. -/
def ofHex (s : String) : Except EncodingError Address := do
  let bs ← (Hex.decodeEven (Bytes.ofChars (Hex.digits s))).mapError EncodingError.ofHex
  ofBytes bs

def toHex (a : Address) : String := Hex.encode a.bytes

def isZero (a : Address) : Bool := a = zero

instance : LT Address := ⟨fun a b => a.bytes < b.bytes⟩

instance (a b : Address) : Decidable (a < b) := inferInstanceAs (Decidable (a.bytes < b.bytes))

def sort (as : List Address) : List Address := as.mergeSort fun a b => !decide (b < a)

end Address

end OpcodeConformance
