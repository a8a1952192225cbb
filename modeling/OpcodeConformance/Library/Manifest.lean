import OpcodeConformance.Json.Record

namespace OpcodeConformance

structure FunctionEntry where
  deps : List String
  imports : List String
  deriving DecidableEq, Repr

def FunctionEntry.record : Json.Record FunctionEntry where
  name := "FunctionEntry"
  initial := ⟨[], []⟩
  fields := [
    Json.field "deps" (Json.list Json.text) fun x e => { e with deps := x },
    Json.field "imports" (Json.list Json.text) fun x e => { e with imports := x }]

structure Manifest where
  imports : Table String String
  functions : Table String FunctionEntry

namespace Manifest

def record : Json.Record Manifest where
  name := "Manifest"
  initial := ⟨.empty, .empty⟩
  fields := [
    Json.field "imports" (Json.table Json.textKey Json.text) fun x m => { m with imports := x },
    Json.requiredField "functions" (Json.table Json.textKey FunctionEntry.record.decoder)
      fun x m => { m with functions := x }]

def ofDocument (document : Bytes) : Except Json.Problem Manifest :=
  Json.decode record.decoder document

end Manifest

end OpcodeConformance
