import OpcodeConformance.Address.Json
import OpcodeConformance.Json.Record

namespace OpcodeConformance

structure CaseEnvironment where
  caller : Option Address
  callData : Option Bytes
  coinbase : Option Address
  address : Option Address
  deriving DecidableEq, Repr

def CaseEnvironment.record : Json.Record CaseEnvironment where
  name := "TestEnvironment"
  initial := ⟨none, none, none, none⟩
  fields := [
    Json.field "caller" (Json.optional Address.decoder) fun x e => { e with caller := x },
    Json.field "callData" (Json.optional Json.hexBytes) fun x e => { e with callData := x },
    Json.field "coinbase" (Json.optional Address.decoder) fun x e => { e with coinbase := x },
    Json.field "address" (Json.optional Address.decoder) fun x e => { e with address := x }]

abbrev MemoryWords := Table Nat String

/-- The machine before the opcode runs. The words of the stack are listed from the bottom. -/
structure CaseInput where
  stack : List String
  memory : MemoryWords

namespace Json

def words : Decoder (List String) := list text

def memoryWords : Decoder MemoryWords := table (numberKey (uint32.map UInt32.toNat)) text

end Json

def CaseInput.record : Json.Record CaseInput where
  name := "TestInput"
  initial := ⟨[], .empty⟩
  fields := [
    Json.field "stack" Json.words fun x i => { i with stack := x },
    Json.field "memory" Json.memoryWords fun x i => { i with memory := x }]

structure CaseOutput where
  stack : List String
  memory : MemoryWords
  returned : Option String
  gasUsed : Option UInt64

def CaseOutput.record : Json.Record CaseOutput where
  name := "TestOutput"
  initial := ⟨[], .empty, none, none⟩
  fields := [
    Json.field "stack" Json.words fun x o => { o with stack := x },
    Json.field "memory" Json.memoryWords fun x o => { o with memory := x },
    Json.field "return" (Json.optional Json.text) fun x o => { o with returned := x },
    Json.field "gasUsed" (Json.optional Json.uint64) fun x o => { o with gasUsed := x }]

structure Case where
  /-- The opcode, which is also the name of the function that runs it. -/
  op : String
  description : String
  environment : CaseEnvironment
  input : CaseInput
  params : List Int64
  output : CaseOutput

namespace Case

def record : Json.Record Case where
  name := "OpcodeTestCase"
  initial := ⟨"", "", CaseEnvironment.record.initial, CaseInput.record.initial, [],
    CaseOutput.record.initial⟩
  fields := [
    Json.requiredField "op" Json.text fun x c => { c with op := x },
    Json.field "description" Json.text fun x c => { c with description := x },
    Json.field "environment" CaseEnvironment.record.decoder fun x c => { c with environment := x },
    Json.field "in" CaseInput.record.decoder fun x c => { c with input := x },
    Json.field "params" (Json.list Json.int64) fun x c => { c with params := x },
    Json.field "out" CaseOutput.record.decoder fun x c => { c with output := x }]

def label (c : Case) : String :=
  if c.description.isEmpty then c.op else s!"{c.op} ({c.description})"

def ofDocument (document : Bytes) : Except Json.Problem Case := Json.decode record.decoder document

def listOfDocument (document : Bytes) : Except Json.Problem (List Case) :=
  Json.decode (Json.list record.decoder) document

end Case

end OpcodeConformance
