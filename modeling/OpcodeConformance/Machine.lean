import OpcodeConformance.Block
import OpcodeConformance.Contract
import OpcodeConformance.HarnessError
import OpcodeConformance.Synthesis
import OpcodeConformance.Wasm.Text.Module

namespace OpcodeConformance

/-- An action that changes a state, also when it fails. -/
abbrev Action (ε ω α : Type) := ExceptT ε (StateM ω) α

def Action.mapError {ε ε' ω α : Type} (f : ε → ε') (a : Action ε ω α) : Action ε' ω α :=
  fun s =>
    match a s with
    | (.ok x, s) => (.ok x, s)
    | (.error e, s) => (.error (f e), s)

/-- A machine for code of type `κ`, with states of type `ω`. -/
structure Machine (κ ω : Type) where
  create : κ → StateTree → Address → Action Fault ω Unit
  receive : Message → Action Fault ω Unit
  /-- Asks for the instance that the last message has made. -/
  attach : Action Fault ω Unit
  call : String → List Int64 → Action Fault ω (Option Int64)
  write : Nat → Bytes → Action Fault ω Unit
  read : Nat → Nat → Action Fault ω Bytes
  settle : Action Fault ω Unit
  gasLeft : ω → UInt64
  returnValue : ω → Option Bytes

def Machine.contract : Machine Binary Contract where
  create code state account := fun _ => (.ok (), .new code state account)
  receive m := fun c => c.receive m
  attach := fun c => (if c.live.isSome then .ok () else .error .notInstantiated, c)
  call name params := fun c => c.call name params
  write offset bs := fun c => c.write offset bs
  read offset len := fun c => (c.read offset len, c)
  settle := fun c => c.settle
  gasLeft := (·.gasLeft)
  returnValue := (·.response.payload)

def Toolchain.module : Toolchain Binary := fun text =>
  match Wasm.Module.ofText? text with
  | some m => .ok (.compiled m)
  | none => .error ⟨"malformed module text"⟩

end OpcodeConformance
