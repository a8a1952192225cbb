import OpcodeConformance.Json.Decoder
import OpcodeConformance.StateTree.Node

namespace OpcodeConformance

inductive StateError where
  | notFound (path : String)
  | emptyPath
  | invalidValue (path reason : String)
  deriving DecidableEq, Repr

def StateError.message : StateError → String
  | notFound path => s!"no vertex at path: {path}"
  | emptyPath => "empty path"
  | invalidValue path reason => s!"invalid value at {path}: {reason}"

def displayPath (path : List String) : String := "/".intercalate path

structure StateTree where
  root : Node
  ordered : root.Ordered

namespace StateTree

instance : DecidableEq StateTree := fun a b =>
  decidable_of_iff (a.root = b.root) (by cases a; cases b; simp)

def empty : StateTree := ⟨Node.empty, Node.ordered_empty⟩

instance : Inhabited StateTree := ⟨empty⟩

def ofValue (v : Bytes) : StateTree := ⟨.leaf (some v), trivial⟩

def value (t : StateTree) : Option Bytes := t.root.value

def edges (t : StateTree) : List (String × Node) := t.root.edges

def isEmpty (t : StateTree) : Bool := t.value.isNone && t.edges.isEmpty

def hash (t : StateTree) : Bytes := t.root.hash

def get (t : StateTree) (path : List String) : Except StateError StateTree :=
  match h : t.root.get? path with
  | some c => .ok ⟨c, t.ordered.get? h⟩
  | none => .error (.notFound (displayPath path))

def contains (t : StateTree) (path : List String) : Bool := (t.root.get? path).isSome

def child? (t : StateTree) (name : String) : Option StateTree :=
  match h : t.root.child? name with
  | some c => some ⟨c, t.ordered.child? h⟩
  | none => none

def set (t : StateTree) (path : List String) (node : StateTree) : Except StateError StateTree :=
  match path with
  | [] => .error .emptyPath
  | name :: path => .ok ⟨Node.put name path node.root t.root, node.ordered.put t.ordered⟩

def setValue (t : StateTree) (path : List String) (v : Bytes) : Except StateError StateTree :=
  match h : t.root.setValueAt? v path with
  | some u => .ok ⟨u, t.ordered.setValueAt? h⟩
  | none => .error (.notFound (displayPath path))

def decodeValue {α : Type} (t : StateTree) (d : Json.Decoder α) : Except StateError (Option α) :=
  match t.value with
  | none => .ok none
  | some v =>
    match Json.decode d v with
    | .ok x => .ok (some x)
    | .error p => .error (.invalidValue "" p.message)

end StateTree

end OpcodeConformance
