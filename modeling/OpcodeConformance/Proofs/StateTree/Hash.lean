import OpcodeConformance.Proofs.Hex
import OpcodeConformance.Proofs.StateTree

namespace OpcodeConformance

namespace Bytes

theorem ofChars_injective : Function.Injective ofChars := by
  intro cs ds h
  have htext := congrArg text? h
  rw [text?_ofChars, text?_ofChars] at htext
  exact String.ofList_injective (Option.some.inj htext)

theorem ofString_injective : Function.Injective ofString := by
  intro a b h
  exact String.toList_injective (ofChars_injective h)

theorem big_eight_inj {m n : Nat} (hm : m < 2 ^ 64) (hn : n < 2 ^ 64) (h : big 8 m = big 8 n) :
    m = n := by
  have hvalue := congrArg littleValue (List.reverse_inj.mp h)
  have hpow : 256 ^ 8 = 2 ^ 64 := rfl
  rwa [littleValue_little, littleValue_little, hpow, Nat.mod_eq_of_lt hm, Nat.mod_eq_of_lt hn]
    at hvalue

/-- Byte strings behind their lengths are told apart, whatever stands behind them. -/
theorem measured_append_inj {bs cs r s : Bytes} (hbs : bs.length < 2 ^ 64)
    (hcs : cs.length < 2 ^ 64)
    (h : big 8 bs.length ++ (bs ++ r) = big 8 cs.length ++ (cs ++ s)) : bs = cs ∧ r = s := by
  obtain ⟨hlength, hrest⟩ := List.append_inj h (by rw [length_big, length_big])
  exact List.append_inj hrest (big_eight_inj hbs hcs hlength)

end Bytes

namespace Node

/-- Eight bytes hold the lengths of all values and names. -/
def LengthsFit : Node → Prop
  | leaf v => ∀ bs ∈ v, bs.length < 2 ^ 64
  | edge name child rest =>
    (Bytes.ofString name).length < 2 ^ 64 ∧ child.LengthsFit ∧ rest.LengthsFit

/-- Different byte strings that nodes of both trees are hashed from have one digest. The nodes stand
at one path. -/
def Collide (s t : Node) : Prop :=
  ∃ path a b, s.get? path = some a ∧ t.get? path = some b ∧ a.preimage ≠ b.preimage ∧
    keccak256 a.preimage = keccak256 b.preimage

variable {s t c d : Node} {name : String}

theorem LengthsFit.value (h : t.LengthsFit) : ∀ bs ∈ t.value, bs.length < 2 ^ 64 := by
  induction t with
  | leaf v => exact h
  | edge n c rest _ ih => exact ih h.2.2

theorem Ordered.child?_of_mem (ht : t.Ordered) (hc : (name, c) ∈ t.edges) :
    t.child? name = some c := by
  induction t with
  | leaf v => cases hc
  | edge n d rest _ ih =>
    obtain ⟨-, hrest, hbefore⟩ := ht
    rcases List.mem_cons.mp hc with hfirst | hc
    · cases hfirst
      exact if_pos rfl
    · have hne : n ≠ name := Std.compare_ne_eq_iff_ne.mp (by rw [hbefore _ hc]; decide)
      rw [Node.child?, if_neg hne, ih hrest hc]

theorem Collide.of_child? (hs : s.child? name = some c) (ht : t.child? name = some d)
    (h : c.Collide d) : s.Collide t := by
  obtain ⟨path, a, b, ha, hb, hcollide⟩ := h
  refine ⟨name :: path, a, b, ?_, ?_, hcollide⟩
  · rw [get?_cons, hs, Option.bind_some, ha]
  · rw [get?_cons, ht, Option.bind_some, hb]

theorem preimage_of_none (h : t.value = none) : t.preimage = 0 :: t.edgesPreimage := by
  simp only [preimage, valuePreimage, h, List.singleton_append]

theorem preimage_of_some {v : Bytes} (h : t.value = some v) :
    t.preimage = 1 :: (Bytes.big 8 v.length ++ (v ++ t.edgesPreimage)) := by
  simp only [preimage, valuePreimage, h, List.cons_append, List.append_assoc]

theorem edgesPreimage_edge (name : String) (child rest : Node) :
    (edge name child rest).edgesPreimage = Bytes.big 8 (Bytes.ofString name).length ++
      (Bytes.ofString name ++ (child.hash ++ rest.edgesPreimage)) := by
  simp only [edgesPreimage, List.append_assoc]
  rfl

theorem edgesPreimage_edge_ne_nil (name : String) (child rest : Node) :
    (edge name child rest).edgesPreimage ≠ [] := by
  rw [edgesPreimage_edge]
  intro h
  have hlength := congrArg List.length (List.append_eq_nil_iff.mp h).1
  rw [Bytes.length_big] at hlength
  cases hlength

/-- The value can be read from what a node is hashed from, and so can what its edges contribute. -/
theorem value_of_preimage (hs : ∀ bs ∈ s.value, bs.length < 2 ^ 64)
    (ht : ∀ bs ∈ t.value, bs.length < 2 ^ 64) (h : s.preimage = t.preimage) :
    s.value = t.value ∧ s.edgesPreimage = t.edgesPreimage := by
  cases hsv : s.value with
  | none =>
    rw [preimage_of_none hsv] at h
    cases htv : t.value with
    | none =>
      rw [preimage_of_none htv] at h
      exact ⟨rfl, (List.cons.inj h).2⟩
    | some w =>
      rw [preimage_of_some htv] at h
      cases (List.cons.inj h).1
  | some v =>
    rw [preimage_of_some hsv] at h
    cases htv : t.value with
    | none =>
      rw [preimage_of_none htv] at h
      cases (List.cons.inj h).1
    | some w =>
      rw [preimage_of_some htv] at h
      obtain ⟨rfl, hedges⟩ :=
        Bytes.measured_append_inj (hs v hsv) (ht w htv) (List.cons.inj h).2
      exact ⟨rfl, hedges⟩

/-- The first edge can be read from what edges contribute, and so can what the others contribute. -/
theorem edge_of_edgesPreimage {n n' : String} {rest rest' : Node}
    (hn : (Bytes.ofString n).length < 2 ^ 64) (hn' : (Bytes.ofString n').length < 2 ^ 64)
    (h : (edge n c rest).edgesPreimage = (edge n' d rest').edgesPreimage) :
    n = n' ∧ c.hash = d.hash ∧ rest.edgesPreimage = rest'.edgesPreimage := by
  rw [edgesPreimage_edge, edgesPreimage_edge] at h
  obtain ⟨hname, hrest⟩ := Bytes.measured_append_inj hn hn' h
  -- digests have one length
  obtain ⟨hhash, hrest⟩ := List.append_inj hrest (by simp [hash])
  exact ⟨Bytes.ofString_injective hname, hhash, hrest⟩

/-- Nodes with the same value whose edges contribute the same bytes are equal, or behind one of
their edges there is a collision. -/
theorem eq_or_collide_of_edges (hs : s.Ordered) (ht : t.Ordered) (hsl : s.LengthsFit)
    (htl : t.LengthsFit) (hvalue : s.value = t.value)
    (hedges : s.edgesPreimage = t.edgesPreimage) :
    s = t ∨ ∃ name c d, (name, c) ∈ s.edges ∧ (name, d) ∈ t.edges ∧ c.Collide d := by
  induction s generalizing t with
  | leaf v =>
    cases t with
    | leaf w => exact .inl (congrArg leaf hvalue)
    | edge n d rest' => exact absurd hedges.symm (edgesPreimage_edge_ne_nil n d rest')
  | edge n c rest ihc ihrest =>
    cases t with
    | leaf w => exact absurd hedges (edgesPreimage_edge_ne_nil n c rest)
    | edge n' d rest' =>
      obtain ⟨rfl, hhash, hrest⟩ := edge_of_edgesPreimage hsl.1 htl.1 hedges
      by_cases hpreimage : c.preimage = d.preimage
      case neg => exact .inr ⟨n, c, d, .head _, .head _, [], c, d, rfl, rfl, hpreimage, hhash⟩
      obtain ⟨hcv, hce⟩ := value_of_preimage hsl.2.1.value htl.2.1.value hpreimage
      rcases ihc hs.1 ht.1 hsl.2.1 htl.2.1 hcv hce with rfl | ⟨a, x, y, hx, hy, hcollide⟩
      -- the children are equal, and the other edges decide
      · rcases ihrest hs.2.1 ht.2.1 hsl.2.2 htl.2.2 hvalue hrest with
          rfl | ⟨a, x, y, hx, hy, hcollide⟩
        · exact .inl rfl
        · exact .inr ⟨a, x, y, .tail _ hx, .tail _ hy, hcollide⟩
      · exact .inr ⟨n, c, d, .head _, .head _,
          hcollide.of_child? (hs.1.child?_of_mem hx) (ht.1.child?_of_mem hy)⟩

theorem eq_or_collide_of_hash (hs : s.Ordered) (ht : t.Ordered) (hsl : s.LengthsFit)
    (htl : t.LengthsFit) (h : s.hash = t.hash) : s = t ∨ s.Collide t := by
  by_cases hpreimage : s.preimage = t.preimage
  · obtain ⟨hvalue, hedges⟩ := value_of_preimage hsl.value htl.value hpreimage
    rcases eq_or_collide_of_edges hs ht hsl htl hvalue hedges with
      rfl | ⟨name, c, d, hc, hd, hcollide⟩
    · exact .inl rfl
    · exact .inr (hcollide.of_child? (hs.child?_of_mem hc) (ht.child?_of_mem hd))
  · exact .inr ⟨[], s, t, rfl, rfl, hpreimage, h⟩

end Node

namespace StateTree

/-- Trees of one hash are equal, or there is a path that leads to a node in both, and what these
nodes are hashed from differs and has one digest. -/
theorem eq_or_collision_of_hash {s t : StateTree} (hs : s.root.LengthsFit)
    (ht : t.root.LengthsFit) (h : s.hash = t.hash) :
    s = t ∨ ∃ path a b, s.get path = .ok a ∧ t.get path = .ok b ∧
      a.root.preimage ≠ b.root.preimage ∧
      keccak256 a.root.preimage = keccak256 b.root.preimage := by
  rcases Node.eq_or_collide_of_hash s.ordered t.ordered hs ht h with
    hroot | ⟨path, a, b, ha, hb, hcollide⟩
  · exact .inl (root_injective hroot)
  · exact .inr ⟨path, _, _, get_of_some ha, get_of_some hb, hcollide⟩

/-- Two writes in either order: a node without a value above an empty value, and a value that reads
like the beginning of an edge. -/
theorem eq_or_collision_of_hash_reordered :
    ∃ s t, (StateTree.empty.set ["a", "b"] (.ofValue []) >>= (·.set ["c"] (.ofValue [0, 0]))) =
        .ok s ∧
      (StateTree.empty.set ["c"] (.ofValue [0, 0]) >>= (·.set ["a", "b"] (.ofValue []))) = .ok t ∧
      s.hash = t.hash ∧
      (s = t ∨ ∃ path a b, s.get path = .ok a ∧ t.get path = .ok b ∧
        a.root.preimage ≠ b.root.preimage ∧
        keccak256 a.root.preimage = keccak256 b.root.preimage) := by
  have hfits : (Node.edge "a" (.edge "b" (.leaf (some [])) .empty)
      (.edge "c" (.leaf (some [0, 0])) .empty)).LengthsFit := by
    simp [Node.LengthsFit, Node.empty, Bytes.ofString, Bytes.ofChars, String.utf8EncodeChar]
  exact ⟨_, _, rfl, rfl, rfl, eq_or_collision_of_hash hfits hfits rfl⟩

end StateTree

end OpcodeConformance
