import OpcodeConformance.StateTree

namespace OpcodeConformance

inductive Fault where
  | unsupportedCode
  | invalidCode (reason : String)
  | link (reason : String)
  | instantiation (reason : String)
  | trap (reason : String)
  | missingExport (name : String)
  | wrongParamCount (name : String) (expected actual : Nat)
  /-- A parameter is of a type that no integer can be given for. -/
  | unsupportedParam (name type : String)
  | paramOutOfRange (name : String) (value : Int64)
  | memoryOutOfBounds (offset len size : Nat)
  /-- No message has been received. -/
  | notInstantiated
  | outOfGas (requested left : UInt64)
  | state (e : StateError)
  deriving DecidableEq, Repr

namespace Fault

def message : Fault → String
  | unsupportedCode => "unsupported code: missing wasm magic header"
  | invalidCode reason => s!"compile error: {reason}"
  | link reason => s!"link error: {reason}"
  | instantiation reason => s!"instantiation failed: {reason}"
  | trap reason => s!"trap: {reason}"
  | missingExport name => s!"missing export: {name}"
  | wrongParamCount name expected actual =>
    s!"export {name} expects {Decimal.ofNat expected} params, got {Decimal.ofNat actual}"
  | unsupportedParam name type => s!"export {name} has unsupported param type {type}"
  | paramOutOfRange name value =>
    s!"export {name} takes an i32, {Decimal.ofInt value.toInt} is out of range"
  | memoryOutOfBounds offset len size =>
    "memory access out of bounds: " ++
      s!"{Decimal.ofNat len} bytes at {Decimal.ofNat offset} (size {Decimal.ofNat size})"
  | notInstantiated => "no module instance: receive a message first"
  | outOfGas requested left =>
    s!"out of gas: requested {Decimal.ofNat requested.toNat}, {Decimal.ofNat left.toNat} left"
  | state e => s!"state error: {e.message}"

end Fault

end OpcodeConformance
