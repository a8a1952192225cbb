import OpcodeConformance.Contract.Fault
import OpcodeConformance.Wasm.Typing

namespace OpcodeConformance

def Binary.mark : Bytes := [0x00, 0x61, 0x73, 0x6d]

/-- Contract code: bytes without the mark, bytes with the mark that are no module, or the binary form
of a module, for which the module itself stands. -/
inductive Binary where
  | unmarked (content : Bytes) (h : ¬Binary.mark.isPrefixOf content)
  | malformed
  | compiled (m : Wasm.Module)
  deriving DecidableEq, Repr

namespace Binary

def emptyModule : Bytes := mark ++ [0x01, 0x00, 0x00, 0x00]

/-- Code given by its bytes, which must be the empty module or no module at all. -/
def bytes (content : Bytes) : Binary :=
  if h : mark.isPrefixOf content then
    if content = emptyModule then .compiled .empty else .malformed
  else .unmarked content h

def load : Binary → Except Fault Wasm.Module
  | unmarked .. => .error .unsupportedCode
  | malformed => .error (.invalidCode "malformed module")
  | compiled m => if m.isValid then .ok m else .error (.invalidCode "invalid module")

end Binary

end OpcodeConformance
