import OpcodeConformance.Block
import OpcodeConformance.Proofs.StateTree

namespace OpcodeConformance

namespace Node

variable {name other : String} {path q : List String}

theorem insert_insert_self (name : String) (child child' t : Node) :
    insert name child (insert name child' t) = insert name child t := by
  have hself : compare name name = .eq := Std.ReflCmp.compare_self
  induction t with
  | leaf v => simp only [insert, hself]
  | edge n c rest _ ih =>
    cases h : compare name n with
    | lt => simp only [insert, h, hself]
    | eq => simp only [insert, h, hself]
    | gt => simp only [insert, h, ih]

theorem insert_comm_of_lt (h : compare name other = .lt) (child child' t : Node) :
    insert name child (insert other child' t) = insert other child' (insert name child t) := by
  have h' : compare other name = .gt := Std.OrientedCmp.gt_iff_lt.mpr h
  induction t with
  | leaf v => simp only [insert, h, h']
  | edge n c rest _ ih =>
    -- what the greater name stands in front of, the smaller one stands in front of too
    cases hother : compare other n with
    | lt =>
      have hname : compare name n = .lt := Std.TransCmp.lt_trans h hother
      simp only [insert, h, h', hname, hother]
    | eq =>
      have hname : compare name n = .lt := Std.LawfulEqCmp.eq_of_compare hother ▸ h
      simp only [insert, h, h', hname, hother]
    | gt =>
      cases hname : compare name n with
      | lt => simp only [insert, h', hname, hother]
      | eq => simp only [insert, h', hname, hother]
      | gt => simp only [insert, hname, hother, ih]

theorem insert_comm (h : name ≠ other) (child child' t : Node) :
    insert name child (insert other child' t) = insert other child' (insert name child t) := by
  cases hlt : compare name other with
  | lt => exact insert_comm_of_lt hlt child child' t
  | eq => exact absurd (Std.LawfulEqCmp.eq_of_compare hlt) h
  | gt => exact (insert_comm_of_lt (Std.OrientedCmp.gt_iff_lt.mp hlt) child' child t).symm

/-- Of two writes under one edge, both reach it through what the first has left there. -/
theorem put_put_same (name : String) (path q : List String) (node node' t : Node) :
    put name q node' (put name path node t) =
      insert name (behind q node' (some (behind path node (t.child? name)))) t := by
  rw [put_eq_insert name path, put_eq_insert name q, child?_insert, if_pos rfl, insert_insert_self]

/-- Writes under two edges can be exchanged. -/
theorem put_comm_of_ne (h : name ≠ other) (path q : List String) (node node' t : Node) :
    put other q node' (put name path node t) = put name path node (put other q node' t) := by
  simp only [put_eq_insert, child?_insert, if_neg h, if_neg h.symm]
  exact insert_comm h.symm _ _ t

/-- A write is not seen behind a later one at its path or above it. -/
theorem put_put_of_prefix (h : other :: q <+: name :: path) (node node' t : Node) :
    put other q node' (put name path node t) = put other q node' t := by
  induction q generalizing name other path t with
  | nil =>
    obtain ⟨rfl, -⟩ := List.cons_prefix_cons.mp h
    rw [put_put_same, put_eq_insert other []]
    rfl
  | cons next q ih =>
    obtain ⟨rfl, hrest⟩ := List.cons_prefix_cons.mp h
    cases path with
    | nil => exact absurd (List.prefix_nil.mp hrest) (List.cons_ne_nil _ _)
    | cons second path =>
      rw [put_put_same, put_eq_insert other (next :: q)]
      exact congrArg (insert other · t) (ih hrest ((t.child? other).getD empty))

/-- Writes can be exchanged if neither path leads to the other. -/
theorem put_comm (hpath : ¬name :: path <+: other :: q) (hq : ¬other :: q <+: name :: path)
    (node node' t : Node) :
    put other q node' (put name path node t) = put name path node (put other q node' t) := by
  induction path generalizing name other q t with
  | nil =>
    refine put_comm_of_ne ?_ [] q node node' t
    rintro rfl
    exact hpath (List.prefix_append [name] q)
  | cons next path ih =>
    by_cases hname : name = other
    · subst hname
      rw [List.cons_prefix_cons, not_and] at hpath hq
      cases q with
      | nil => exact absurd List.nil_prefix (hq rfl)
      | cons second q =>
        -- both writes go on in the node behind the edge, which the first may have created
        rw [put_put_same, put_put_same]
        exact congrArg (insert name · t)
          (ih (hpath rfl) (hq rfl) ((t.child? name).getD empty))
    · exact put_comm_of_ne hname (next :: path) q node node' t

end Node

namespace StateTree

/-- Two writes where neither path leads to the other give one tree, and so one hash, in either
order. A write behind which another follows at its path or above it leaves nothing. -/
theorem set_set (t a b : StateTree) {p q : List String} (hp : p ≠ []) (hq : q ≠ []) :
    (¬p <+: q → ¬q <+: p → ∃ u, (t.set p a >>= (set · q b)) = .ok u ∧
      (t.set q b >>= (set · p a)) = .ok u) ∧
    (q <+: p → ∃ u, t.set q b = .ok u ∧ (t.set p a >>= (set · q b)) = .ok u) := by
  obtain ⟨name, path, rfl⟩ := List.exists_cons_of_ne_nil hp
  obtain ⟨other, rest, rfl⟩ := List.exists_cons_of_ne_nil hq
  constructor
  · intro hpq hqp
    refine ⟨_, rfl, congrArg Except.ok (root_injective ?_)⟩
    exact (Node.put_comm hpq hqp a.root b.root t.root).symm
  · intro hprefix
    refine ⟨_, rfl, congrArg Except.ok (root_injective ?_)⟩
    exact Node.put_put_of_prefix hprefix a.root b.root t.root

/-- Two accounts can be stored in either order where there are none yet, and storing the second anew
takes away what was stored below it. -/
theorem set_set_accounts :
    let a := ofValue [1]
    let b := ofValue [2]
    (∃ u, (empty.set [accountsPath, "x"] a >>= (set · [accountsPath, "y"] b)) = .ok u ∧
      (empty.set [accountsPath, "y"] b >>= (set · [accountsPath, "x"] a)) = .ok u) ∧
    ∃ u, empty.set [accountsPath, "y"] b = .ok u ∧
      (empty.set [accountsPath, "y", "storage"] a >>= (set · [accountsPath, "y"] b)) = .ok u := by
  intro a b
  constructor
  · exact (set_set empty a b (by decide) (by decide)).1 (by decide) (by decide)
  · exact (set_set empty a b (by decide) (by decide)).2 (by decide)

end StateTree

end OpcodeConformance
