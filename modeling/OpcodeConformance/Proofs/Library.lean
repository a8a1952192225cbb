import Mathlib.Data.List.Basic
import Mathlib.Data.List.Induction
import OpcodeConformance.Library

namespace OpcodeConformance

namespace Table

variable {κ α : Type} [DecidableEq κ]

theorem lookup_cons_ite (k a : κ) (v : α) (entries : List (κ × α)) :
    ((k, v) :: entries).lookup a = if a = k then some v else entries.lookup a := by
  by_cases h : a = k
  · simp [h]
  · rw [List.lookup_cons, beq_false_of_ne h, if_neg h]

variable [Ord κ] {t : Table κ α} {k : κ} {v : α}

theorem contains_iff : t.contains k = true ↔ ∃ v, t.get? k = some v := Option.isSome_iff_exists

theorem mem_keys_iff : k ∈ t.keys ↔ ∃ v, t.get? k = some v := by
  rw [← Option.isSome_iff_exists, get?, List.lookup_isSome_iff, keys, List.mem_map]
  exact exists_congr fun p => and_congr_right fun _ => by rw [beq_iff_eq, eq_comm]

theorem mem_of_get? (h : t.get? k = some v) : (k, v) ∈ t.entries := by
  obtain ⟨front, back, hentries, -⟩ := List.lookup_eq_some_iff.mp h
  exact hentries ▸ List.mem_append_right _ (.head _)

variable [Std.TransOrd κ] [Std.LawfulEqOrd κ]

omit [Std.TransOrd κ] in
theorem lookup_insertEntry (k a : κ) (v : α) (entries : List (κ × α)) :
    (insertEntry k v entries).lookup a = if a = k then some v else entries.lookup a := by
  induction entries with
  | nil => exact lookup_cons_ite k a v []
  | cons x rest ih =>
    obtain ⟨b, y⟩ := x
    simp only [insertEntry]
    split
    · exact lookup_cons_ite k a v _
    · rename_i hk
      have hkb : k = b := Std.LawfulEqCmp.eq_of_compare hk
      subst hkb
      simp only [lookup_cons_ite]
      split <;> rfl
    · rename_i hk
      have hkb : k ≠ b := Std.compare_ne_eq_iff_ne.mp (by rw [hk]; decide)
      simp only [lookup_cons_ite, ih]
      by_cases hab : a = b
      · subst hab
        simp [Ne.symm hkb]
      · simp [hab]

theorem get?_insert (t : Table κ α) (k a : κ) (v : α) :
    (t.insert k v).get? a = if a = k then some v else t.get? a :=
  lookup_insertEntry k a v t.entries

theorem get?_ofList (pairs : List (κ × α)) (a : κ) :
    (ofList pairs).get? a = pairs.reverse.lookup a := by
  have hfold (t : Table κ α) : (pairs.foldl (fun t p => t.insert p.1 p.2) t).get? a =
      (pairs.reverse.lookup a).or (t.get? a) := by
    induction pairs generalizing t with
    | nil => rfl
    | cons p pairs ih =>
      rw [List.foldl_cons, ih, get?_insert, List.reverse_cons, List.lookup_append,
        lookup_cons_ite, Option.or_assoc]
      split <;> rfl
  rw [ofList, hfold]
  exact Option.or_none

theorem mem_keys_ofList {pairs : List (κ × α)} : k ∈ (ofList pairs).keys ↔ k ∈ pairs.map (·.1) := by
  rw [mem_keys_iff, get?_ofList, ← Option.isSome_iff_exists, List.lookup_isSome_iff, List.mem_map]
  exact exists_congr fun p => and_congr List.mem_reverse (by rw [beq_iff_eq, eq_comm])

end Table

namespace ModuleText

variable {xs : List String} {x : String}

theorem mem_distinct : x ∈ distinct xs ↔ x ∈ xs := by
  rw [distinct, List.mem_reverse]
  induction xs using List.reverseRecOn with
  | nil => exact Iff.rfl
  | append_singleton xs y ih =>
    rw [List.foldl_concat, List.mem_append, List.mem_singleton, ← ih]
    split
    · rename_i hy
      rw [List.contains_iff_mem] at hy
      exact ⟨.inl, fun h => h.elim id fun heq => heq ▸ hy⟩
    · rw [List.mem_cons, or_comm]

theorem distinct_concat (xs : List String) (x : String) :
    distinct (xs ++ [x]) = if x ∈ xs then distinct xs else distinct xs ++ [x] := by
  have hmem : x ∈ distinct xs ↔ x ∈ xs := mem_distinct
  rw [distinct, List.mem_reverse] at hmem
  rw [distinct, List.foldl_concat, distinct]
  by_cases hx : x ∈ xs
  · rw [if_pos hx, if_pos (List.contains_iff_mem.mpr (hmem.mpr hx))]
  · rw [if_neg hx, if_neg fun hc => hx (hmem.mp (List.contains_iff_mem.mp hc)), List.reverse_cons]

theorem distinct_of_nodup (h : xs.Nodup) : distinct xs = xs := by
  induction xs using List.reverseRecOn with
  | nil => rfl
  | append_singleton xs x ih =>
    obtain ⟨hxs, -, hnew⟩ := List.nodup_append.mp h
    rw [distinct_concat, if_neg fun hx => hnew x hx x (.head _) rfl, ih hxs]

end ModuleText

namespace Library

variable {l : Library}

theorem body_eq_ok_iff {name body : String} :
    l.body name = .ok body ↔ l.bodies.get? name = some body := by
  unfold Library.body
  cases l.bodies.get? name <;> simp

theorem importText_eq_ok_iff {u : String × String} {text : String} :
    l.importText u = .ok text ↔ l.manifest.imports.get? u.2 = some text := by
  unfold importText
  cases l.manifest.imports.get? u.2 <;> simp

/-- What is resolved are the bodies and the imports of the functions in order. -/
theorem resolve_of_mapM {names order bodies imports : List String}
    (horder : l.order names = .ok order) (hbodies : order.mapM l.body = .ok bodies)
    (himports : (l.uses order).mapM l.importText = .ok imports) :
    l.resolve names = .ok (bodies, imports) := by
  rw [resolve, horder]
  change (do
    let bodies ← order.mapM l.body
    let imports ← (l.uses order).mapM l.importText
    return (bodies, imports)) = _
  rw [hbodies, himports]
  rfl

end Library

end OpcodeConformance
