import OpcodeConformance.Bytes
import OpcodeConformance.Decimal

namespace OpcodeConformance

inductive Effect where
  | useGas (amount : UInt64)
  | finish (payload : Bytes)
  | revert (payload : Bytes)
  deriving DecidableEq, Repr

namespace Effect

def payloadText (bs : Bytes) : String :=
  "[" ++ ", ".intercalate (bs.map fun b => Decimal.ofNat b.toNat) ++ "]"

def text : Effect → String
  | useGas amount => s!"UseGas({Decimal.ofNat amount.toNat})"
  | finish payload => s!"Return({payloadText payload})"
  | revert payload => s!"Revert({payloadText payload})"

def charge : Effect → Nat
  | useGas amount => amount.toNat
  | _ => 0

end Effect

end OpcodeConformance
