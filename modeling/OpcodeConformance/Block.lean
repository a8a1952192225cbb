import OpcodeConformance.Address.Json
import OpcodeConformance.Json.Record
import OpcodeConformance.Keccak

namespace OpcodeConformance

structure BlockHeader where
  coinbase : Address
  number : UInt64
  timestamp : UInt64
  gasLimit : UInt64
  deriving DecidableEq, Repr

namespace BlockHeader

def initial : BlockHeader := ⟨Address.zero, 0, 0, 30000000⟩

def record : Json.Record BlockHeader where
  name := "BlockHeader"
  initial := initial
  fields := [
    Json.field "coinbase" Address.decoder fun x h => { h with coinbase := x },
    Json.field "number" Json.uint64 fun x h => { h with number := x },
    Json.field "timestamp" Json.uint64 fun x h => { h with timestamp := x },
    Json.field "gasLimit" Json.uint64 fun x h => { h with gasLimit := x }]

def print (h : BlockHeader) : List Char :=
  Json.Print.object [
    ("coinbase", h.coinbase.print),
    ("number", Json.Print.number h.number.toNat),
    ("timestamp", Json.Print.number h.timestamp.toNat),
    ("gasLimit", Json.Print.number h.gasLimit.toNat)]

end BlockHeader

structure Block where
  header : BlockHeader
  deriving DecidableEq, Repr

namespace Block

def initial : Block := ⟨.initial⟩

instance : Inhabited Block := ⟨initial⟩

def withCoinbase (coinbase : Address) : Block := ⟨{ BlockHeader.initial with coinbase }⟩

def record : Json.Record Block where
  name := "Block"
  initial := initial
  fields := [Json.field "header" BlockHeader.record.decoder fun x _ => ⟨x⟩]

def print (b : Block) : List Char := Json.Print.object [("header", b.header.print)]

end Block

/-- The history of the chain. There is only one: the hash of a block is made from its number. -/
structure ChainHistory where
  deriving DecidableEq, Repr

namespace ChainHistory

def blockHash (_ : ChainHistory) (number : UInt64) : Bytes :=
  keccak256 (Bytes.ofChars (Decimal.digits number.toNat))

def record : Json.Record ChainHistory where
  name := "FakeBlockchain"
  initial := ⟨⟩
  fields := []

def print (_ : ChainHistory) : List Char := Json.Print.object []

end ChainHistory

structure Message where
  caller : Address
  data : Bytes
  gas : UInt64
  deriving DecidableEq, Repr

def blockPath : String := "block"
def historyPath : String := "blockchain"
def accountsPath : String := "accounts"

def accountPath (a : Address) : List String := [accountsPath, a.toHex]

end OpcodeConformance
