import OpcodeConformance.Path

namespace OpcodeConformance

inductive FileProblem where
  | notFound
  | notFolder
  | isFolder
  | notText
  | nulInPath
  | nameTooLong
  deriving DecidableEq, Repr

def FileProblem.message : FileProblem → String
  | notFound => "No such file or directory (os error 2)"
  | notFolder => "Not a directory (os error 20)"
  | isFolder => "Is a directory (os error 21)"
  | notText => "stream did not contain valid UTF-8"
  | nulInPath => "file name contained an unexpected NUL byte"
  | nameTooLong => "File name too long (os error 36)"

inductive FileEntry where
  | file (content : Bytes)
  | folder
  deriving DecidableEq, Repr

/-- The files and folders below a root, by the names on the way to them. -/
structure FileTree where
  entries : List (List String × FileEntry)
  deriving DecidableEq, Repr

namespace FileTree

def empty : FileTree := ⟨[]⟩

def entry? (t : FileTree) (place : List String) : Option FileEntry :=
  if place.isEmpty then some .folder else t.entries.lookup place

def insertAlone (t : FileTree) (place : List String) (e : FileEntry) : FileTree :=
  if (t.entry? place).isSome then t else ⟨t.entries ++ [(place, e)]⟩

def insert (t : FileTree) (place : List String) (e : FileEntry) : FileTree :=
  let folders := (List.range place.length).map place.take
  (folders.foldl (fun t p => t.insertAlone p .folder) t).insertAlone place e

/-- The tree of a system with no files of its own: the folders that every system has, and a device
that reads as an empty file. -/
def bare : FileTree :=
  let folders := ["bin", "dev", "etc", "home", "proc", "root", "sbin", "tmp", "usr", "var"]
  (folders.foldl (fun t name => t.insert [name] .folder) empty).insert ["dev", "null"] (.file [])

def longestName : Nat := 255

def longestPath : Nat := 4095

def walk (t : FileTree) : List String → List String → Except FileProblem (List String)
  | place, [] => .ok place
  | place, step :: steps =>
    match t.entry? place with
    | some .folder =>
      if Path.isStill step then walk t place steps
      else if step = ".." then walk t place.dropLast steps
      else if step.utf8ByteSize > longestName then .error .nameTooLong
      else walk t (place ++ [step]) steps
    | some (.file _) => .error .notFolder
    | none => .error .notFound

def find (t : FileTree) (path : String) : Except FileProblem (List String × FileEntry) := do
  if path.toList.contains (Char.ofNat 0) then throw .nulInPath
  if path.isEmpty then throw .notFound
  if path.utf8ByteSize > longestPath then throw .nameTooLong
  let place ← t.walk [] (Path.steps path)
  match t.entry? place with
  | some e => return (place, e)
  | none => throw .notFound

def isFolder (t : FileTree) (path : String) : Bool :=
  match t.find path with
  | .ok (_, .folder) => true
  | _ => false

def isFile (t : FileTree) (path : String) : Bool :=
  match t.find path with
  | .ok (_, .file _) => true
  | _ => false

def read (t : FileTree) (path : String) : Except FileProblem Bytes := do
  match ← t.find path with
  | (_, .file content) => return content
  | (_, .folder) => throw .isFolder

def readText (t : FileTree) (path : String) : Except FileProblem String := do
  match Bytes.text? (← t.read path) with
  | some s => return s
  | none => throw .notText

/-- The names in a folder, in no particular order. -/
def names (t : FileTree) (path : String) : Except FileProblem (List String) := do
  let (place, _) ← t.find path
  return t.entries.filterMap fun e => if e.1.dropLast = place then e.1.getLast? else none

end FileTree

end OpcodeConformance
