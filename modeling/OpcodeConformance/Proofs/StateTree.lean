import Mathlib.Tactic.ByContra
import OpcodeConformance.StateTree

namespace OpcodeConformance

namespace Node

variable {name : String} {path q : List String} {node t u : Node} {v : Bytes}

/-- The edges behind an insertion: the one that is inserted, and those of other names. -/
theorem child?_insert (name a : String) (child t : Node) :
    (insert name child t).child? a = if name = a then some child else t.child? a := by
  induction t with
  | leaf v => rfl
  | edge n c rest _ ih =>
    simp only [insert]
    split
    · rfl
    · rename_i h
      have hname : name = n := Std.LawfulEqCmp.eq_of_compare h
      subst hname
      simp only [child?]
      split <;> rfl
    · rename_i h
      have hname : name ≠ n := Std.compare_ne_eq_iff_ne.mp (by rw [h]; decide)
      simp only [child?, ih]
      by_cases hn : n = a
      · subst hn
        rw [if_pos rfl, if_neg hname, if_pos rfl]
      · rw [if_neg hn, if_neg hn]

@[simp] theorem value_insert (name : String) (child t : Node) :
    (insert name child t).value = t.value := by
  induction t with
  | leaf v => rfl
  | edge n c rest _ ih =>
    simp only [insert]
    split
    · rfl
    · rfl
    · exact ih

@[simp] theorem value_setValue (v : Bytes) (t : Node) : (t.setValue v).value = some v := by
  induction t with
  | leaf w => rfl
  | edge n c rest _ ih => exact ih

@[simp] theorem child?_setValue (v : Bytes) (a : String) (t : Node) :
    (t.setValue v).child? a = t.child? a := by
  induction t with
  | leaf w => rfl
  | edge n c rest _ ih => simp only [setValue, child?, ih]

@[simp] theorem get?_nil (t : Node) : t.get? [] = some t := rfl

theorem get?_cons (name : String) (path : List String) (t : Node) :
    t.get? (name :: path) = (t.child? name).bind (get? path) := rfl

theorem get?_append (path q : List String) (t : Node) :
    t.get? (path ++ q) = (t.get? path).bind (get? q) := by
  induction path generalizing t with
  | nil => rfl
  | cons name path ih =>
    rw [List.cons_append, get?_cons, get?_cons, Option.bind_assoc]
    exact congrArg _ (funext ih)

/-- Nodes that are created on the way show nothing that was not there. -/
theorem bind_get?_getD_empty {α : Type} {f : Node → Option α} (hf : f empty = none)
    (child : Option Node) (q : List String) :
    ((child.getD empty).get? q).bind f = (child.bind (get? q)).bind f := by
  cases child with
  | some c => rfl
  | none =>
    cases q with
    | nil => exact hf
    | cons a q => rfl

/-- What a write leaves behind the first edge of its path, from what was there before. -/
def behind (path : List String) (node : Node) (old : Option Node) : Node :=
  match path with
  | [] => node
  | next :: path => put next path node (old.getD empty)

theorem put_eq_insert (name : String) (path : List String) (node t : Node) :
    put name path node t = insert name (behind path node (t.child? name)) t := by
  cases path <;> rfl

theorem get?_put (name : String) (path : List String) (node t : Node) :
    (put name path node t).get? (name :: path) = some node := by
  induction path generalizing name t with
  | nil => rw [put, get?_cons, child?_insert, if_pos rfl, Option.bind_some, get?_nil]
  | cons next path ih => rw [put, get?_cons, child?_insert, if_pos rfl, Option.bind_some, ih]

/-- A node on the way to the path keeps its value and its other edges. -/
theorem get?_put_of_append (node t : Node) {next : String} {rest : List String}
    (h : name :: path = q ++ next :: rest) :
    ∃ c, (put name path node t).get? q = some c ∧ c.value = (t.get? q).bind value ∧
      ∀ a, a ≠ next → c.child? a = (t.get? q).bind (child? a) := by
  induction q generalizing name path t with
  | nil =>
    obtain ⟨rfl, rfl⟩ := List.cons.inj h
    refine ⟨_, rfl, ?_, fun a ha => ?_⟩
    · rw [put_eq_insert, value_insert]
      rfl
    · rw [put_eq_insert, child?_insert, if_neg (Ne.symm ha)]
      rfl
  | cons b q ih =>
    obtain rfl : name = b := (List.cons.inj h).1
    cases path with
    | nil => simp at h
    | cons second path =>
      obtain ⟨c, hc, hvalue, hchild⟩ := ih (t := (t.child? name).getD empty) (List.cons.inj h).2
      refine ⟨c, ?_, ?_, fun a ha => ?_⟩
      · rw [put, get?_cons, child?_insert, if_pos rfl, Option.bind_some, hc]
      · rw [hvalue, bind_get?_getD_empty rfl, get?_cons]
      · rw [hchild a ha, bind_get?_getD_empty rfl, get?_cons]

/-- Away from the path nothing changes. -/
theorem get?_put_of_not_prefix (hq : ¬q <+: name :: path) (hpath : ¬name :: path <+: q) :
    (put name path node t).get? q = t.get? q := by
  induction path generalizing name q t with
  | nil =>
    cases q with
    | nil => exact absurd List.nil_prefix hq
    | cons a q =>
      have hne : name ≠ a := by
        rintro rfl
        exact hpath (List.prefix_append [name] q)
      rw [put, get?_cons, child?_insert, if_neg hne, get?_cons]
  | cons next path ih =>
    cases q with
    | nil => exact absurd List.nil_prefix hq
    | cons a q =>
      rw [put, get?_cons, child?_insert, get?_cons]
      split
      · rename_i hname
        subst hname
        simp only [List.cons_prefix_cons, true_and] at hq hpath
        rw [Option.bind_some, ih hq hpath]
        -- the path apart from its first name is not empty, so a created node shows nothing there
        cases q with
        | nil => exact absurd List.nil_prefix hq
        | cons b q => cases t.child? name <;> rfl
      · rfl

theorem setValueAt?_eq_none_iff : t.setValueAt? v path = none ↔ t.get? path = none := by
  induction path generalizing t with
  | nil => simp [setValueAt?]
  | cons name path ih =>
    rw [setValueAt?, get?_cons]
    cases t.child? name with
    | none => simp
    | some c =>
      rw [Option.bind_some, ← ih]
      cases h : setValueAt? v path c <;> simp [h]

/-- Setting a value keeps all nodes, and the values of all others. -/
theorem value_get?_of_setValueAt? (h : t.setValueAt? v path = some u) (q : List String) :
    (u.get? q).map value = (t.get? q).map fun c => if q = path then some v else c.value := by
  induction path generalizing t u q with
  | nil =>
    cases h
    cases q with
    | nil => simp
    | cons a q => simp [get?_cons]
  | cons name path ih =>
    obtain ⟨c, hc, h⟩ := Option.bind_eq_some_iff.mp h
    obtain ⟨d, hd, h⟩ := Option.bind_eq_some_iff.mp h
    cases h
    cases q with
    | nil => simp
    | cons a q =>
      rw [get?_cons, get?_cons, child?_insert]
      split
      · rename_i hname
        subst hname
        rw [hc, Option.bind_some, Option.bind_some, ih hd]
        simp
      · rename_i hname
        simp [Ne.symm hname]

end Node

namespace StateTree

variable {t u c : StateTree} {path : List String} {name : String}

theorem root_injective : Function.Injective root := by
  rintro ⟨_, _⟩ ⟨_, _⟩ rfl
  rfl

theorem get_of_some {d : Node} (h : t.root.get? path = some d) :
    t.get path = .ok ⟨d, t.ordered.get? h⟩ := by
  unfold get
  split <;> rename_i hroot <;> cases hroot.symm.trans h
  rfl

theorem get_of_none (h : t.root.get? path = none) :
    t.get path = .error (.notFound (displayPath path)) := by
  unfold get
  split <;> rename_i hroot
  · cases hroot.symm.trans h
  · rfl

theorem get_of_root {d : Node} (h : t.root.get? path = some d) :
    ∃ u, t.get path = .ok u ∧ u.root = d := ⟨_, get_of_some h, rfl⟩

theorem get_eq_ok_iff : t.get path = .ok c ↔ t.root.get? path = some c.root := by
  cases h : t.root.get? path with
  | some d => rw [get_of_some h, Except.ok.injEq, Option.some.injEq, ← root_injective.eq_iff]
  | none => simp [get_of_none h]

theorem get_eq_error_iff {e : StateError} :
    t.get path = .error e ↔ t.root.get? path = none ∧ .notFound (displayPath path) = e := by
  cases h : t.root.get? path with
  | some d => simp [get_of_some h]
  | none => simp [get_of_none h]

theorem get_congr (h : t.root.get? path = u.root.get? path) : t.get path = u.get path := by
  cases hu : u.root.get? path with
  | some d => rw [get_of_some (h.trans hu), get_of_some hu]
  | none => rw [get_of_none (h.trans hu), get_of_none hu]

theorem map_get {α : Type} (f : Node → α) (t : StateTree) (path : List String) :
    (t.get path).map (fun c => f c.root) =
      ((t.root.get? path).map f).elim (.error (.notFound (displayPath path))) .ok := by
  cases h : t.root.get? path with
  | some d => rw [get_of_some h]; rfl
  | none => rw [get_of_none h]; rfl

theorem bind_get {α : Type} (f : Node → Option α) (t : StateTree) (path : List String) :
    (t.get path).toOption.bind (fun c => f c.root) = (t.root.get? path).bind f := by
  cases h : t.root.get? path with
  | some d => rw [get_of_some h]; rfl
  | none => rw [get_of_none h]; rfl

theorem map_root_child? (t : StateTree) (name : String) :
    (t.child? name).map root = t.root.child? name := by
  unfold child?
  split <;> rename_i h <;> exact h.symm

theorem set_cons (t node : StateTree) (name : String) (path : List String) :
    t.set (name :: path) node =
      .ok ⟨Node.put name path node.root t.root, node.ordered.put t.ordered⟩ := rfl

theorem setValue_eq_error_iff {v : Bytes} {e : StateError} :
    t.setValue path v = .error e ↔ t.get path = .error e := by
  rw [get_eq_error_iff, ← Node.setValueAt?_eq_none_iff (v := v)]
  unfold setValue
  split <;> rename_i h <;> simp [h]

theorem root_of_setValue {v : Bytes} (h : t.setValue path v = .ok u) :
    t.root.setValueAt? v path = some u.root := by
  unfold setValue at h
  split at h
  · rename_i d hd
    cases h
    exact hd
  · cases h

/-- Behind a write at a path, the tree that was put there is read at the path and below it. On the
way to the path values are what they were, and so are all edges but the one that leads to it. All
other paths read what they did, which may be nothing. There is no write at the empty path. A value
is set only where there is a node, and then all paths lead to nodes as before, and only the value at
that path is another. -/
theorem get_behind_write (t node : StateTree) (v : Bytes) (name : String) (path : List String) :
    (∃ u, t.set (name :: path) node = .ok u ∧
      (∀ q c, u.get (name :: path ++ q) = .ok c ↔ node.get q = .ok c) ∧
      (∀ q next rest, name :: path = q ++ next :: rest → ∃ c, u.get q = .ok c ∧
        c.value = (t.get q).toOption.bind value ∧
        ∀ a, a ≠ next → c.child? a = (t.get q).toOption.bind (child? · a)) ∧
      ∀ q, ¬q <+: name :: path → ¬name :: path <+: q → u.get q = t.get q) ∧
    t.set [] node = .error .emptyPath ∧
    ∀ p, (∀ e, t.setValue p v = .error e ↔ t.get p = .error e) ∧
      ∀ u, t.setValue p v = .ok u → ∀ q,
        (u.get q).map value = (t.get q).map fun c => if q = p then some v else c.value := by
  refine ⟨⟨_, set_cons t node name path, fun q c => ?_, fun q next rest h => ?_, fun q hq hp => ?_⟩,
    rfl, fun p => ⟨fun e => setValue_eq_error_iff, fun u h q => ?_⟩⟩
  · rw [get_eq_ok_iff, get_eq_ok_iff, Node.get?_append, Node.get?_put, Option.bind_some]
  · obtain ⟨d, hd, hvalue, hchild⟩ := Node.get?_put_of_append node.root t.root h
    refine ⟨_, get_of_some hd, hvalue.trans (bind_get _ t q).symm, fun a ha => ?_⟩
    apply Option.map_injective root_injective
    rw [map_root_child?, Option.map_bind]
    refine (hchild a ha).trans ((bind_get _ t q).symm.trans ?_)
    exact congrArg _ (funext fun c => (map_root_child? c a).symm)
  · exact get_congr (Node.get?_put_of_not_prefix hq hp)
  · have hvalue := Node.value_get?_of_setValueAt? (root_of_setValue h) q
    refine (map_get Node.value u q).trans ?_
    rw [hvalue]
    exact (map_get (fun d => if q = p then some v else d.value) t q).symm

end StateTree

end OpcodeConformance
