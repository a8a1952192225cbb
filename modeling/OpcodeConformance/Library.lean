import OpcodeConformance.Library.Manifest
import OpcodeConformance.Library.ModuleText

namespace OpcodeConformance

structure Library where
  manifest : Manifest
  bodies : Table String String
  pages : Nat

namespace Library

def manifestName : String := "manifest.json"

def bodyName (function : String) : String := function ++ ".wast"

/-- What a function lacks for being in a library with these bodies. -/
def defect? (m : Manifest) (bodies : Table String String) (name : String) (e : FunctionEntry) :
    Option LibraryError :=
  if !bodies.contains name then some (.missingBody name (bodyName name))
  else (e.imports.find? fun i => !m.imports.contains i).map (.unknownImport name ·)

/-- A library in which every function has a body and uses declared imports only. -/
def ofParts (m : Manifest) (bodies : Table String String) : Except LibraryError Library :=
  match m.functions.entries.findSome? fun f => defect? m bodies f.1 f.2 with
  | some e => .error e
  | none => .ok ⟨m, bodies, ModuleText.defaultPages⟩

def readBody (t : FileTree) (folder name : String) : Except LibraryError (String × String) :=
  let path := Path.join folder (bodyName name)
  if t.isFile path then ((t.readText path).map (name, ·)).mapError .unreadable
  else .error (.missingBody name path)

def read (t : FileTree) (folder : String) : Except LibraryError Library := do
  let text ← (t.readText (Path.join folder manifestName)).mapError .unreadable
  let m ← (Manifest.ofDocument (Bytes.ofString text)).mapError .manifest
  let bodies ← m.functions.keys.mapM (readBody t folder)
  ofParts m (Table.ofList bodies)

/-- How far a walk through the functions has come: the functions met, the last first, and those that
are done, the first first. -/
structure Walk where
  met : List String
  done : List String

/-- Visits a function and what it calls; it is done behind all that. No chain of functions that are
met for the first time is longer than `depth`. -/
def visit (functions : Table String FunctionEntry) : Nat → Walk → String → Except LibraryError Walk
  | 0, _, name => .error (.unknownFunction name)
  | depth + 1, w, name =>
    if w.met.contains name then .ok w
    else
      match functions.get? name with
      | none => .error (.unknownFunction name)
      | some e => do
        let w ← e.deps.foldlM (visit functions depth) { w with met := name :: w.met }
        return { w with done := w.done ++ [name] }

/-- The functions that are needed for the named ones, callees first. Every chain of declared
functions is shorter than their table, and one step more may lead to a function that is not
declared. -/
def order (l : Library) (names : List String) : Except LibraryError (List String) := do
  let functions := l.manifest.functions
  let start := (Table.ofList (names.map fun n => (n, ()))).keys
  let w ← start.foldlM (visit functions (functions.keys.length + 1)) ⟨[], []⟩
  return w.done

def body (l : Library) (name : String) : Except LibraryError String :=
  match l.bodies.get? name with
  | some b => .ok b
  | none => .error (.missingBody name (bodyName name))

/-- The imports that functions use, each with the first function that uses it. -/
def uses (l : Library) (functions : List String) : List (String × String) :=
  let all := functions.flatMap fun f =>
    (l.manifest.functions.get? f).elim [] fun e => e.imports.map (f, ·)
  all.foldl (fun kept u => if kept.any (·.2 = u.2) then kept else kept ++ [u]) []

def importText (l : Library) (u : String × String) : Except LibraryError String :=
  match l.manifest.imports.get? u.2 with
  | some text => .ok text
  | none => .error (.unknownImport u.1 u.2)

def resolve (l : Library) (names : List String) :
    Except LibraryError (List String × List String) := do
  let functions ← l.order names
  let bodies ← functions.mapM l.body
  let imports ← (l.uses functions).mapM l.importText
  return (bodies, imports)

def build (l : Library) (functions imports exports : List String) : Except LibraryError String :=
  ModuleText.build functions imports exports l.pages

end Library

end OpcodeConformance
