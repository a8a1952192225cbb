import OpcodeConformance.Decimal
import OpcodeConformance.Decimal.Binary

namespace OpcodeConformance.Decimal

def withTwoPlaces (hundredths : Nat) : List Char :=
  digits (hundredths / 100) ++ '.' :: digits (hundredths / 10 % 10) ++ digits (hundredths % 10)

/-- A number with two decimal places; a half goes to the even neighbour. -/
def fixed (x : Float) : String :=
  let b := Binary.ofBits x.toBits
  let (num, den) := b.scaled 2
  let text := withTwoPlaces (roundDiv num den)
  String.ofList (if b.negative then '-' :: text else text)

end OpcodeConformance.Decimal
