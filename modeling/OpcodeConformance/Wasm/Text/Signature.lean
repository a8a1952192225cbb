import OpcodeConformance.Wasm.Text.Form
import OpcodeConformance.Wasm.Text.Instruction

namespace OpcodeConformance.Wasm.Text

def named? : List (List Char) → Option (List (Name × ValueType))
  | [w, t] =>
    if isName w then (ValueType.ofWord? t).map fun t => [(some w, t)]
    else (types? [w, t]).map fun ts => ts.map (none, ·)
  | ws => (types? ws).map fun ts => ts.map (none, ·)

structure Signature where
  params : List (Name × ValueType)
  results : List ValueType
  deriving DecidableEq, Repr

namespace Signature

def empty : Signature := ⟨[], []⟩

def type (s : Signature) : FunctionType := ⟨s.params.map (·.2), s.results⟩

/-- The signature with one more group, given by what is inside its parentheses. Parameters cannot be
declared behind results. -/
def declare? (s : Signature) : Forms → Option Signature
  | .words (w :: ws) .nil =>
    if w = "param".toList then
      if s.results.isEmpty then (named? ws).map fun vs => { s with params := s.params ++ vs }
      else none
    else if w = "result".toList then
      (types? ws).map fun ts => { s with results := s.results ++ ts }
    else none
  | _ => none

def ofForms (s : Signature) : Forms → Signature × Forms
  | .group inner rest =>
    match s.declare? inner with
    | some s => ofForms s rest
    | none => (s, .group inner rest)
  | forms => (s, forms)

end Signature

def Opening.declare? (o : Opening) (inner : Forms) : Option Opening := do
  let s ← Signature.declare? ⟨o.type.params.map (none, ·), o.type.results⟩ inner
  if s.params.all (·.1.isNone) then return { o with type := s.type } else none

def Opening.ofForms (o : Opening) : Forms → Opening × Forms
  | .group inner rest =>
    match o.declare? inner with
    | some o => ofForms o rest
    | none => (o, .group inner rest)
  | forms => (o, forms)

def locals : Forms → List (Name × ValueType) × Forms
  | .group (.words (w :: ws) .nil) rest =>
    match if w = "local".toList then named? ws else none with
    | some vs =>
      let (more, content) := locals rest
      (vs ++ more, content)
    | none => ([], .group (.words (w :: ws) .nil) rest)
  | forms => ([], forms)

end OpcodeConformance.Wasm.Text
