import OpcodeConformance.Wasm.Text.Sequence

namespace OpcodeConformance.Wasm.Text

inductive Kind where
  | function
  | memory
  | global
  | segment
  deriving DecidableEq, Repr

def Kind.ofWord? (w : List Char) : Option Kind :=
  if w = "func".toList then some .function
  else if w = "memory".toList then some .memory
  else if w = "global".toList then some .global
  else if w = "data".toList then some .segment
  else none

structure Definition where
  kind : Kind
  name : Name
  exports : List String
  imported : Option (String × String)
  content : Forms

def splitName : List (List Char) → Name × List (List Char)
  | w :: ws => if isName w then (some w, ws) else (none, w :: ws)
  | [] => (none, [])

def joined (ws : List (List Char)) (rest : Forms) : Forms :=
  if ws.isEmpty then rest else .words ws rest

def exported? : Forms → Option String
  | .words [w] (.text name .nil) => if w = "export".toList then Bytes.text? name else none
  | _ => none

def imported? : Forms → Option (String × String)
  | .words [w] (.text module (.text name .nil)) => do
    if w = "import".toList then return (← Bytes.text? module, ← Bytes.text? name) else none
  | _ => none

def splitExports : Forms → List String × Forms
  | .group inner rest =>
    match exported? inner with
    | some name =>
      let (names, content) := splitExports rest
      (name :: names, content)
    | none => ([], .group inner rest)
  | forms => ([], forms)

def splitImport : Forms → Option (String × String) × Forms
  | .group inner rest =>
    match imported? inner with
    | some names => (some names, rest)
    | none => (none, .group inner rest)
  | forms => (none, forms)

namespace Definition

/-- A definition that is not a field of its own but the description in an import. -/
def ofDescription? (names : String × String) : Forms → Option Definition
  | .words (w :: ws) rest => do
    let kind ← Kind.ofWord? w
    let (name, ws) := splitName ws
    if kind = .segment then none else return ⟨kind, name, [], some names, joined ws rest⟩
  | _ => none

/-- The definition that a field is, if it is one. What is imported is defined in a field of its own or
in an import; both are read into one form. -/
def ofField? : Forms → Option Definition
  | .words [w] (.text module (.text name (.group description .nil))) => do
    let names ← imported? (.words [w] (.text module (.text name .nil)))
    ofDescription? names description
  | .words (w :: ws) rest => do
    let kind ← Kind.ofWord? w
    let (name, ws) := splitName ws
    if kind = .segment || !ws.isEmpty then return ⟨kind, name, [], none, joined ws rest⟩
    else
      let (exports, rest) := splitExports rest
      let (imported, rest) := splitImport rest
      return ⟨kind, name, exports, imported, rest⟩
  | _ => none

/-- The names of the things of one kind, in the order of their numbers. -/
def namesOf (k : Kind) (ds : List Definition) : List Name :=
  ds.filterMap fun d => if d.kind = k then some d.name else none

/-- Whether all imports stand in front of the functions, memories and globals of the module. -/
def importsPrecede (ds : List Definition) : Bool :=
  (ds.dropWhile fun d => d.kind = .segment || d.imported.isSome).all (·.imported.isNone)

end Definition

def areDistinct (names : List Name) : Bool := decide (names.filterMap id).Nodup

end OpcodeConformance.Wasm.Text
