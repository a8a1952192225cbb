import OpcodeConformance.Wasm.Text.Definition

namespace OpcodeConformance.Wasm.Text

def fields? : Forms → Option (List Forms)
  | .nil => some []
  | .group inner rest => (fields? rest).map (inner :: ·)
  | _ => none

/-- The fields of a text: those of the one module in it, or all its forms if there is none. A text
without any form is refused. -/
def moduleFields? : Forms → Option (List Forms)
  | .nil => none
  | .group inner rest =>
    match inner with
    | .words (w :: ws) fields =>
      if w = "module".toList then
        if rest.isNil && (splitName ws).2.isEmpty then fields? fields else none
      else fields? (.group inner rest)
    | _ => none
  | _ => none

def texts? : Forms → Option Bytes
  | .nil => some []
  | .text content rest => (texts? rest).map (content ++ ·)
  | _ => none

def limits? (isWide : Bool) (ws : List (List Char)) : Option Limits := do
  let isShared := ws.getLast? = some "shared".toList
  match ← (if isShared then ws.dropLast else ws).mapM (Number.index? 64) with
  | [least] => return ⟨least, none, isWide, isShared⟩
  | [least, greatest] => return ⟨least, some greatest, isWide, isShared⟩
  | _ => none

/-- The type of addresses at the beginning, which is `i32` if it is left out, and the words behind
it. The answer is whether addresses are wider than that. -/
def splitAddressType : List (List Char) → Bool × List (List Char)
  | w :: ws =>
    if w = ValueType.i64.name.toList then (true, ws)
    else (false, if w = ValueType.i32.name.toList then ws else w :: ws)
  | [] => (false, [])

def memoryType? : Forms → Option Limits
  | .words ws .nil =>
    let (isWide, ws) := splitAddressType ws
    limits? isWide ws
  | _ => none

def dataGroup? : Forms → Option Bytes
  | .group (.words [w] content) .nil => if w = "data".toList then texts? content else none
  | _ => none

def memoryContent? : Forms → Option (Bool × Bytes)
  | .words ws rest =>
    match splitAddressType ws with
    | (isWide, []) => (dataGroup? rest).map (isWide, ·)
    | _ => none
  | forms => (dataGroup? forms).map (false, ·)

def globalType? : Forms → Option (GlobalType × Forms)
  | .words (t :: ws) rest => do return (⟨← ValueType.ofWord? t, false⟩, joined ws rest)
  | .group (.words [w, t] .nil) rest => do
    if w = "mut".toList then return (⟨← ValueType.ofWord? t, true⟩, rest) else none
  | _ => none

namespace Scope

def ofDefinitions (ds : List Definition) : Scope :=
  let names (k : Kind) : List Name := Definition.namesOf k ds
  ⟨names .function, names .global, names .memory, []⟩

def target? (s : Scope) (keyword w : List Char) : Option Target :=
  match Kind.ofWord? keyword with
  | some .function => (reference? s.functions w).map .function
  | some .memory => (reference? s.memories w).map .memory
  | some .global => (reference? s.globals w).map .global
  | _ => none

end Scope

def withExports (m : Module) (names : List String) (t : Target) : Module :=
  { m with exports := m.exports ++ names.map (⟨·, t⟩) }

def withImport (m : Module) (names : String × String) (t : ImportType) : Module :=
  { m with imports := m.imports ++ [⟨names.1, names.2, t⟩] }

/-- The module with one more function. Its parameters and locals share one list of names. -/
def withFunction? (s : Scope) (m : Module) (d : Definition) : Option Module := do
  let (signature, content) := Signature.ofForms .empty d.content
  let m' := withExports m d.exports (.function m.functionTypes.length)
  match d.imported with
  | some names =>
    if content.isNil then return withImport m' names (.function signature.type) else none
  | none =>
    let (ls, content) := locals content
    let names := (signature.params ++ ls).map (·.1)
    if areDistinct names then
      let f : Function :=
        ⟨signature.type, ls.map (·.2), ← code? { s with locals := names } content⟩
      return { m' with functions := m.functions ++ [f] }
    else none

def withMemory? (m : Module) (d : Definition) : Option Module := do
  let i := m.memoryLimits.length
  let m' := withExports m d.exports (.memory i)
  match d.imported, memoryContent? d.content with
  | some names, _ => return withImport m' names (.memory (← memoryType? d.content))
  | none, none => return { m' with memories := m.memories ++ [← memoryType? d.content] }
  | none, some (isWide, bs) =>
    let pages := (bs.length + pageSize - 1) / pageSize
    return { m' with
      memories := m.memories ++ [⟨pages, some pages, isWide, false⟩]
      segments := m.segments ++ [⟨i, .op (.const (.i32 0)) .done, bs⟩] }

def withGlobal? (s : Scope) (m : Module) (d : Definition) : Option Module := do
  let (type, content) ← globalType? d.content
  let m' := withExports m d.exports (.global m.globalTypes.length)
  match d.imported with
  | some names => if content.isNil then return withImport m' names (.global type) else none
  | none => return { m' with globals := m.globals ++ [⟨type, ← code? s content⟩] }

/-- The memory that a segment of data is written into, and what follows it. Without a group around
it the memory has no name. -/
def segmentMemory? (s : Scope) : Forms → Option (Nat × Forms)
  | .words [w] rest => (Number.index? 32 w).map (·, rest)
  | .group (.words [w, i] .nil) rest =>
    if w = "memory".toList then (reference? s.memories i).map (·, rest)
    else some (0, .group (.words [w, i] .nil) rest)
  | content => some (0, content)

/-- The module with one more segment of data. Data without an offset is not written by itself, and
there need not be any data. -/
def withSegment? (s : Scope) (m : Module) (d : Definition) : Option Module :=
  match d.content with
  | .nil => some m
  | .text content rest => (texts? (.text content rest)).map fun _ => m
  | content => do
    match ← segmentMemory? s content with
    | (memory, .group inner rest) =>
      let ls ← if inner.startsWith "offset" then arm? s inner [] else place? s inner
      return { m with segments := m.segments ++ [⟨memory, ← Code.ofLines? ls, ← texts? rest⟩] }
    | _ => none

def withDefinition? (s : Scope) (m : Module) (d : Definition) : Option Module :=
  match d.kind with
  | .function => withFunction? s m d
  | .memory => withMemory? m d
  | .global => withGlobal? s m d
  | .segment => withSegment? s m d

def withField? (s : Scope) (m : Module) (field : Forms) : Option Module :=
  match Definition.ofField? field with
  | some d => withDefinition? s m d
  | none =>
    match field with
    | .words [k] (.text name (.group (.words [keyword, w] .nil) .nil)) => do
      if k = "export".toList then
        return withExports m [← Bytes.text? name] (← s.target? keyword w)
      else none
    | .words [k, f] .nil => do
      if k = "start".toList then
        return { m with starts := m.starts ++ [← reference? s.functions f] }
      else none
    | _ => none

end OpcodeConformance.Wasm.Text

namespace OpcodeConformance.Wasm

/-- The module that a text describes. Its names are gathered before the fields are read, because a
field can refer to later ones. -/
def Module.ofChars? (cs : List Char) : Option Module := do
  let fields ← Text.moduleFields? (← Text.forms? cs)
  let ds := fields.filterMap Text.Definition.ofField?
  let areNamed := [Text.Kind.function, .memory, .global, .segment].all fun k =>
    Text.areDistinct (Text.Definition.namesOf k ds)
  if Text.Definition.importsPrecede ds && areNamed then
    fields.foldlM (Text.withField? (.ofDefinitions ds)) Module.empty
  else none

def Module.ofText? (text : String) : Option Module := Module.ofChars? text.toList

end OpcodeConformance.Wasm
