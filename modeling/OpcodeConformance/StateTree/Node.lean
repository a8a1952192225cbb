import OpcodeConformance.Keccak

namespace OpcodeConformance

/-- A node is its value with its edges in front of it, the first edge outermost. -/
inductive Node where
  | leaf (value : Option Bytes)
  | edge (name : String) (child rest : Node)
  deriving DecidableEq, Repr

namespace Node

def empty : Node := leaf none

instance : Inhabited Node := ⟨empty⟩

def value : Node → Option Bytes
  | leaf v => v
  | edge _ _ rest => rest.value

def setValue (v : Bytes) : Node → Node
  | leaf _ => leaf (some v)
  | edge name child rest => edge name child (rest.setValue v)

def edges : Node → List (String × Node)
  | leaf _ => []
  | edge name child rest => (name, child) :: rest.edges

def child? (name : String) : Node → Option Node
  | leaf _ => none
  | edge n child rest => if n = name then some child else rest.child? name

def insert (name : String) (child : Node) : Node → Node
  | leaf v => edge name child (leaf v)
  | edge n c rest =>
    match compare name n with
    | .lt => edge name child (edge n c rest)
    | .eq => edge name child rest
    | .gt => edge n c (insert name child rest)

def get? : List String → Node → Option Node
  | [], t => some t
  | name :: path, t => (t.child? name).bind (get? path)

/-- Puts `node` at the path `name :: path`. Nodes that are missing on the way are created. -/
def put (name : String) : List String → Node → Node → Node
  | [], node, t => insert name node t
  | next :: path, node, t => insert name (put next path node ((t.child? name).getD empty)) t

def setValueAt? (v : Bytes) : List String → Node → Option Node
  | [], t => some (t.setValue v)
  | name :: path, t => do
    let child ← t.child? name
    let child ← setValueAt? v path child
    return insert name child t

/-- All edges of the node and of the nodes below it are in ascending order of their names. -/
def Ordered : Node → Prop
  | leaf _ => True
  | edge name child rest =>
    child.Ordered ∧ rest.Ordered ∧ ∀ e ∈ rest.edges, compare name e.1 = .lt

/-- What a node's value contributes to its hash: its presence, its length and its bytes. -/
def valuePreimage (t : Node) : Bytes :=
  match t.value with
  | some v => 1 :: (Bytes.big 8 v.length ++ v)
  | none => [0]

/-- What the edges contribute, in their order: the length and the bytes of the name, and the hash of
the node it leads to. -/
def edgesPreimage : Node → Bytes
  | leaf _ => []
  | edge name child rest =>
    let n := Bytes.ofString name
    Bytes.big 8 n.length ++ n ++ keccak256 (child.valuePreimage ++ child.edgesPreimage) ++
      rest.edgesPreimage

/-- The bytes whose digest is the hash of the node. -/
def preimage (t : Node) : Bytes := t.valuePreimage ++ t.edgesPreimage

def hash (t : Node) : Bytes := keccak256 t.preimage

theorem ordered_empty : empty.Ordered := trivial

theorem mem_edges_insert {name : String} {child : Node} {e : String × Node} {t : Node}
    (h : e ∈ (insert name child t).edges) : e = (name, child) ∨ e ∈ t.edges := by
  induction t with
  | leaf v => exact .inl (List.mem_singleton.1 h)
  | edge n c rest _ ih =>
    simp only [insert] at h
    split at h
    · exact List.mem_cons.1 h
    · exact (List.mem_cons.1 h).imp_right (.tail _)
    · rcases List.mem_cons.1 h with rfl | h
      · exact .inr (.head _)
      · exact (ih h).imp_right (.tail _)

theorem Ordered.insert {name : String} {child t : Node} (hc : child.Ordered) (ht : t.Ordered) :
    (Node.insert name child t).Ordered := by
  induction t with
  | leaf v => exact ⟨hc, trivial, by simp [edges]⟩
  | edge n c rest _ ih =>
    obtain ⟨h₁, h₂, h₃⟩ := ht
    simp only [Node.insert]
    split
    · next h =>
      refine ⟨hc, ⟨h₁, h₂, h₃⟩, fun e he => ?_⟩
      rcases List.mem_cons.1 he with rfl | he
      · exact h
      · exact Std.TransCmp.lt_trans h (h₃ e he)
    · next h =>
      refine ⟨hc, h₂, fun e he => ?_⟩
      rw [Std.LawfulEqCmp.eq_of_compare h]
      exact h₃ e he
    · next h =>
      refine ⟨h₁, ih h₂, fun e he => ?_⟩
      rcases mem_edges_insert he with rfl | he
      · exact Std.OrientedCmp.gt_iff_lt.1 h
      · exact h₃ e he

theorem Ordered.child? {name : String} {t c : Node} (ht : t.Ordered)
    (h : t.child? name = some c) : c.Ordered := by
  induction t with
  | leaf v => cases h
  | edge n d rest _ ih =>
    simp only [Node.child?] at h
    split at h
    · cases h; exact ht.1
    · exact ih ht.2.1 h

theorem Ordered.get? {path : List String} {t c : Node} (ht : t.Ordered)
    (h : t.get? path = some c) : c.Ordered := by
  induction path generalizing t with
  | nil => cases h; exact ht
  | cons name path ih =>
    obtain ⟨d, hd, h⟩ := Option.bind_eq_some_iff.1 h
    exact ih (ht.child? hd) h

theorem Ordered.put {name : String} {path : List String} {node t : Node} (hn : node.Ordered)
    (ht : t.Ordered) : (put name path node t).Ordered := by
  induction path generalizing name t with
  | nil => exact hn.insert ht
  | cons next path ih =>
    refine Ordered.insert (ih ?_) ht
    cases h : t.child? name with
    | none => exact ordered_empty
    | some c => exact ht.child? h

@[simp] theorem edges_setValue (v : Bytes) (t : Node) : (t.setValue v).edges = t.edges := by
  induction t with
  | leaf _ => rfl
  | edge n c rest _ ih => simp [setValue, edges, ih]

theorem Ordered.setValue {v : Bytes} {t : Node} (ht : t.Ordered) : (t.setValue v).Ordered := by
  induction t with
  | leaf _ => trivial
  | edge n c rest _ ih =>
    exact ⟨ht.1, ih ht.2.1, fun e he => ht.2.2 e (by simpa using he)⟩

theorem Ordered.setValueAt? {v : Bytes} {path : List String} {t u : Node} (ht : t.Ordered)
    (h : t.setValueAt? v path = some u) : u.Ordered := by
  induction path generalizing t u with
  | nil => cases h; exact ht.setValue
  | cons name path ih =>
    obtain ⟨c, hc, h⟩ := Option.bind_eq_some_iff.1 h
    obtain ⟨d, hd, h⟩ := Option.bind_eq_some_iff.1 h
    cases h
    exact (ih (ht.child? hc) hd).insert ht

end Node

end OpcodeConformance
