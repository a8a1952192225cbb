import OpcodeConformance.Address
import OpcodeConformance.Contract.Fault
import OpcodeConformance.Library.Error

namespace OpcodeConformance

inductive HarnessError where
  | unreadable (p : FileProblem)
  | json (p : Json.Problem)
  | hex (reason : String)
  | notFound (path : String)
  /-- The module or the context of a case could not be made. -/
  | setup (reason : String)
  | execution (reason : String)
  | valueTooLarge (actual greatest : Nat)
  deriving DecidableEq, Repr

namespace HarnessError

def message : HarnessError → String
  | unreadable p => s!"IO error: {p.message}"
  | json p => s!"JSON error: {p.message}"
  | hex reason => s!"Hex error: {reason}"
  | notFound path => s!"Test directory not found: {path}"
  | setup reason => s!"Setup failed: {reason}"
  | execution reason => s!"WASM exception: {reason}"
  | valueTooLarge actual greatest =>
    s!"Value too large: {Decimal.ofNat actual} bytes, at most {Decimal.ofNat greatest} allowed"

def ofEncoding (e : EncodingError) : HarnessError := .hex e.message

def ofLibrary (e : LibraryError) : HarnessError := .setup e.message

def ofState (e : StateError) : HarnessError := .setup s!"state: {e.message}"

def ofFault (f : Fault) : HarnessError := .execution f.message

end HarnessError

end OpcodeConformance
