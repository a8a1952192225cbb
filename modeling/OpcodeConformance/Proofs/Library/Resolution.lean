import OpcodeConformance.Proofs.Library.Walk
import OpcodeConformance.Proofs.Results

namespace OpcodeConformance

/-- `kept` lists the elements of `all`, in the order in which they first occur there. -/
structure ListsFirsts {α : Type} [BEq α] (all kept : List α) : Prop where
  mem_iff : ∀ x, x ∈ kept ↔ x ∈ all
  ordered : kept.Pairwise fun x y => all.idxOf x < all.idxOf y

namespace ListsFirsts

variable {α : Type} [BEq α] {all kept : List α} {x : α}

theorem nodup (h : ListsFirsts all kept) : kept.Nodup :=
  h.ordered.imp fun hlt heq => Nat.ne_of_lt hlt (congrArg (all.idxOf ·) heq)

variable [LawfulBEq α]

theorem ordered_concat (h : ListsFirsts all kept) (x : α) :
    kept.Pairwise fun y z => (all ++ [x]).idxOf y < (all ++ [x]).idxOf z := by
  refine h.ordered.imp_of_mem fun hy hz hlt => ?_
  rwa [List.idxOf_append_of_mem ((h.mem_iff _).mp hy),
    List.idxOf_append_of_mem ((h.mem_iff _).mp hz)]

theorem concat_of_mem (h : ListsFirsts all kept) (hx : x ∈ kept) :
    ListsFirsts (all ++ [x]) kept where
  mem_iff y := by
    rw [List.mem_append, List.mem_singleton, ← h.mem_iff]
    exact ⟨.inl, fun hy => hy.elim id fun heq => heq ▸ hx⟩
  ordered := h.ordered_concat x

theorem concat_of_not_mem (h : ListsFirsts all kept) (hx : x ∉ kept) :
    ListsFirsts (all ++ [x]) (kept ++ [x]) where
  mem_iff y := by rw [List.mem_append, List.mem_append, h.mem_iff]
  ordered := by
    refine List.pairwise_append.mpr ⟨h.ordered_concat x, List.pairwise_singleton _ _, ?_⟩
    intro y hy z hz
    obtain rfl := List.mem_singleton.mp hz
    rw [List.idxOf_append_of_mem ((h.mem_iff y).mp hy),
      List.idxOf_append_of_notMem fun hmem => hx ((h.mem_iff z).mpr hmem)]
    exact Nat.lt_add_right _ (List.idxOf_lt_length_iff.mpr ((h.mem_iff y).mp hy))

end ListsFirsts

namespace Library

open Relation

def roots (names : List String) : List String :=
  (Table.ofList (names.map fun n => (n, ()))).keys

/-- The names of the imports that a function uses. -/
def imported (l : Library) (n : String) : List String :=
  (l.manifest.functions.get? n).elim [] (·.imports)

/-- Every declared function has a body and uses declared imports only. -/
structure IsComplete (l : Library) : Prop where
  body : ∀ {n e}, l.manifest.functions.get? n = some e → ∃ b, l.bodies.get? n = some b
  imports : ∀ {n e}, l.manifest.functions.get? n = some e → ∀ i ∈ e.imports,
    ∃ t, l.manifest.imports.get? i = some t

variable {l : Library} {m : Manifest} {bodies : Table String String}
  {names order : List String} {n : String}

theorem isComplete_ofParts (h : ofParts m bodies = .ok l) : l.IsComplete := by
  unfold ofParts at h
  split at h
  · cases h
  rename_i hnone
  cases h
  have hdefect {n e} (he : m.functions.get? n = some e) : defect? m bodies n e = none :=
    List.findSome?_eq_none_iff.mp hnone (n, e) (Table.mem_of_get? he)
  constructor
  · intro n e he
    have hbody := hdefect he
    unfold defect? at hbody
    split at hbody
    · cases hbody
    · rename_i hcontains
      exact Table.contains_iff.mp (by simpa using hcontains)
  · intro n e he i hi
    have himports := hdefect he
    unfold defect? at himports
    split at himports
    · cases himports
    · have hcontains := List.find?_eq_none.mp (Option.map_eq_none_iff.mp himports) i hi
      exact Table.contains_iff.mp (by simpa using hcontains)

theorem mem_roots : n ∈ roots names ↔ n ∈ names := by
  rw [roots, Table.mem_keys_ofList, List.map_map]
  exact ⟨fun h => by simpa using h, fun h => by simpa using h⟩

theorem needs_roots_iff {functions : Table String FunctionEntry} :
    Needs functions (roots names) n ↔ Needs functions names n :=
  ⟨(·.mono fun _ => mem_roots.mp), (·.mono fun _ => mem_roots.mpr)⟩

/-- The order comes from a walk that no bound has cut off. -/
theorem exists_walks (l : Library) (names : List String) :
    ∃ r, Walks l.manifest.functions (roots names) ⟨[], []⟩ r ∧
      l.order names = r.map Walk.done := by
  have hbound : unmet l.manifest.functions ⟨[], []⟩ < l.manifest.functions.keys.length + 1 :=
    Nat.lt_succ_of_le ((Finset.card_le_card Finset.sdiff_subset).trans (List.toFinset_card_le _))
  refine ⟨_, walks_foldlM hbound, ?_⟩
  change ((roots names).foldlM
    (visit l.manifest.functions (l.manifest.functions.keys.length + 1)) ⟨[], []⟩ >>=
      fun w => Except.ok w.done) = _
  cases (roots names).foldlM
    (visit l.manifest.functions (l.manifest.functions.keys.length + 1)) ⟨[], []⟩ <;> rfl

/-- The functions in an order are those that are needed, each once. Each is declared, and stands
behind all that it calls unless they call it in turn. -/
structure IsOrder (functions : Table String FunctionEntry) (names order : List String) : Prop where
  nodup : order.Nodup
  mem_iff : ∀ n, n ∈ order ↔ Needs functions names n
  declared : ∀ n ∈ order, ∃ e, functions.get? n = some e
  callees : ∀ n ∈ order, ∀ b, Calls functions n b → b ∈ order ∧
    (order.idxOf b < order.idxOf n ∨ ReflTransGen (Calls functions) b n)

theorem isOrder_of_ok (h : l.order names = .ok order) :
    IsOrder l.manifest.functions names order := by
  obtain ⟨r, hwalks, horder⟩ := exists_walks l names
  rw [h] at horder
  cases r with
  | error f => cases horder
  | ok w =>
    cases horder
    obtain ⟨new, hnew⟩ := hwalks.exists_continues
    obtain rfl : w.done = new := hnew.done
    have hmet (n : String) : n ∈ w.met ↔ n ∈ w.done := by simpa using hnew.mem_met n
    have hcallees : ∀ n ∈ w.done, ∀ b, Calls l.manifest.functions n b → b ∈ w.done ∧
        (w.done.idxOf b < w.done.idxOf n ∨ ReflTransGen (Calls l.manifest.functions) b n) :=
      fun n hn b hb => (hnew.callees n hn b hb).resolve_left List.not_mem_nil
    refine ⟨hnew.nodup, fun n => ⟨fun hn => needs_roots_iff.mp (hnew.needed n hn), ?_⟩,
      hnew.declared, hcallees⟩
    rintro ⟨root, hroot, hpath⟩
    induction hpath with
    | refl => exact (hmet root).mp (hnew.visited root (mem_roots.mpr hroot))
    | tail _ hcall ih => exact (hcallees _ ih _ hcall).1

theorem exists_unknown_of_order {f : LibraryError} (h : l.order names = .error f) :
    ∃ u, f = .unknownFunction u ∧ Needs l.manifest.functions names u ∧
      l.manifest.functions.get? u = none := by
  obtain ⟨r, hwalks, horder⟩ := exists_walks l names
  rw [h] at horder
  cases r with
  | ok w => cases horder
  | error f =>
    cases horder
    obtain ⟨u, hf, hneeded, hnone⟩ := hwalks.exists_unknown
    exact ⟨u, hf, needs_roots_iff.mp hneeded, hnone⟩

theorem listsFirsts_uses (l : Library) (functions : List String) :
    ListsFirsts (functions.flatMap l.imported) ((l.uses functions).map (·.2)) := by
  have hkept (all : List (String × String)) : ListsFirsts (all.map (·.2))
      ((all.foldl (fun kept u => if kept.any (·.2 = u.2) then kept else kept ++ [u]) []).map
        (·.2)) := by
    induction all using List.reverseRecOn with
    | nil => exact ⟨fun _ => Iff.rfl, .nil⟩
    | append_singleton all u ih =>
      rw [List.foldl_concat, List.map_append]
      split
      · rename_i hany
        refine ih.concat_of_mem ?_
        simpa using hany
      · rename_i hnone
        rw [List.map_append]
        refine ih.concat_of_not_mem ?_
        simpa using hnone
  have hall : functions.flatMap l.imported = (functions.flatMap fun f =>
      (l.manifest.functions.get? f).elim [] fun e => e.imports.map (f, ·)).map (·.2) := by
    rw [List.map_flatMap]
    congr 1
    funext f
    unfold imported
    cases l.manifest.functions.get? f <;> simp
  rw [hall]
  exact hkept _

/-- Complete libraries resolve whatever they can put into an order. -/
theorem resolve_of_order (hl : l.IsComplete) (h : l.order names = .ok order) :
    ∃ bodies imports, l.resolve names = .ok (bodies, imports) ∧
      List.Forall₂ (fun n b => l.bodies.get? n = some b) order bodies ∧
      List.Forall₂ (fun i t => l.manifest.imports.get? i = some t) ((l.uses order).map (·.2))
        imports := by
  have hdeclared := (isOrder_of_ok h).declared
  have hbodies : ∃ bodies, order.mapM l.body = .ok bodies := by
    refine Results.exists_mapM fun n hn => ?_
    obtain ⟨e, he⟩ := hdeclared n hn
    obtain ⟨b, hb⟩ := hl.body he
    exact ⟨b, body_eq_ok_iff.mpr hb⟩
  have himports : ∃ imports, (l.uses order).mapM l.importText = .ok imports := by
    refine Results.exists_mapM fun u hu => ?_
    have hused := ((listsFirsts_uses l order).mem_iff u.2).mp (List.mem_map_of_mem hu)
    obtain ⟨n, hn, hi⟩ := List.mem_flatMap.mp hused
    obtain ⟨e, he⟩ := hdeclared n hn
    rw [imported, he] at hi
    obtain ⟨t, ht⟩ := hl.imports he u.2 hi
    exact ⟨t, importText_eq_ok_iff.mpr ht⟩
  obtain ⟨bodies, hbodies⟩ := hbodies
  obtain ⟨imports, himports⟩ := himports
  refine ⟨bodies, imports, resolve_of_mapM h hbodies himports, ?_, ?_⟩
  · exact (Results.forall₂_of_mapM hbodies).imp fun _ _ => body_eq_ok_iff.mp
  · rw [List.forall₂_map_left_iff]
    exact (Results.forall₂_of_mapM himports).imp fun _ _ => importText_eq_ok_iff.mp

theorem resolve_of_order_error {f : LibraryError} (h : l.order names = .error f) :
    l.resolve names = .error f := by
  rw [resolve, h]
  rfl

/-- The walk that resolves functions ends, and in one way only. All is resolved if and only if all
that is needed is declared, and otherwise a needed function that is not declared is told. What is
resolved are the bodies of the needed functions, each function once, and the texts of the imports
that these use, each import once and in the order of first use. -/
theorem resolve_gives_closure (h : ofParts m bodies = .ok l) (names : List String) :
    (∃ r, (∀ r', Walks l.manifest.functions (roots names) ⟨[], []⟩ r' ↔ r' = r) ∧
        l.order names = r.map Walk.done) ∧
      ((∃ x, l.resolve names = .ok x) ↔
        ∀ n, Needs l.manifest.functions names n → l.manifest.functions.contains n) ∧
      (∀ f, l.resolve names = .error f → ∃ u, f = .unknownFunction u ∧
        Needs l.manifest.functions names u ∧ ¬l.manifest.functions.contains u) ∧
      ∀ texts imports, l.resolve names = .ok (texts, imports) → ∃ order used : List String,
        l.order names = .ok order ∧ order.Nodup ∧
          (∀ n, n ∈ order ↔ Needs l.manifest.functions names n) ∧
          List.Forall₂ (fun n b => l.bodies.get? n = some b) order texts ∧
          used.Nodup ∧ (∀ i, i ∈ used ↔ ∃ n ∈ order, i ∈ l.imported n) ∧
          used.Pairwise (fun i j =>
            (order.flatMap l.imported).idxOf i < (order.flatMap l.imported).idxOf j) ∧
          List.Forall₂ (fun i t => l.manifest.imports.get? i = some t) used imports := by
  have hl := isComplete_ofParts h
  have hfails : ∀ f, l.resolve names = .error f → ∃ u, f = .unknownFunction u ∧
      Needs l.manifest.functions names u ∧ ¬l.manifest.functions.contains u := by
    intro f hf
    cases horder : l.order names with
    | ok order =>
      obtain ⟨texts, imports, hresolve, -⟩ := resolve_of_order hl horder
      cases hf.symm.trans hresolve
    | error f' =>
      cases hf.symm.trans (resolve_of_order_error horder)
      obtain ⟨u, hunknown, hneeded, hnone⟩ := exists_unknown_of_order horder
      refine ⟨u, hunknown, hneeded, ?_⟩
      simp [Table.contains, hnone]
  refine ⟨?_, ⟨?_, ?_⟩, hfails, ?_⟩
  · obtain ⟨r, hwalks, horder⟩ := exists_walks l names
    exact ⟨r, fun r' => ⟨fun h' => h'.unique hwalks, fun heq => heq ▸ hwalks⟩, horder⟩
  · rintro ⟨x, hx⟩ n hn
    cases horder : l.order names with
    | error f => cases hx.symm.trans (resolve_of_order_error horder)
    | ok order =>
      have hspec := isOrder_of_ok horder
      exact Table.contains_iff.mpr (hspec.declared n ((hspec.mem_iff n).mpr hn))
  · intro hdeclared
    apply Results.exists_ok_iff.mpr
    rintro ⟨f, hf⟩
    obtain ⟨u, -, hneeded, hnot⟩ := hfails f hf
    exact hnot (hdeclared u hneeded)
  · intro texts imports hresolve
    cases horder : l.order names with
    | error f => cases hresolve.symm.trans (resolve_of_order_error horder)
    | ok order =>
      obtain ⟨texts', imports', hresolve', hbodies, himports⟩ := resolve_of_order hl horder
      cases hresolve.symm.trans hresolve'
      have hspec := isOrder_of_ok horder
      have hfirsts := listsFirsts_uses l order
      refine ⟨order, _, rfl, hspec.nodup, hspec.mem_iff, hbodies, hfirsts.nodup, fun i => ?_,
        hfirsts.ordered, himports⟩
      rw [hfirsts.mem_iff, List.mem_flatMap]

/-- Two functions that call each other, and one of them itself. -/
def parity : Library where
  manifest := {
    imports := .ofList [("gas", "(import gas)"), ("log", "(import log)"), ("time", "(import time)")]
    functions := .ofList [("even", ⟨["odd", "even"], ["gas", "log"]⟩),
      ("odd", ⟨["even"], ["time", "gas"]⟩)] }
  bodies := .ofList [("even", "(func $even)"), ("odd", "(func $odd)")]
  pages := ModuleText.defaultPages

theorem resolve_gives_closure_parity :
    ofParts parity.manifest parity.bodies = .ok parity ∧
      parity.resolve ["even"] = .ok (["(func $odd)", "(func $even)"],
        ["(import time)", "(import gas)", "(import log)"]) ∧
      ∃ order, parity.order ["even"] = .ok order ∧ order.Nodup ∧
        ∀ n, n ∈ order ↔ Needs parity.manifest.functions ["even"] n := by
  have haccepted : ofParts parity.manifest parity.bodies = .ok parity := by rfl
  have hresolve : parity.resolve ["even"] = .ok (["(func $odd)", "(func $even)"],
      ["(import time)", "(import gas)", "(import log)"]) := by decide +kernel
  obtain ⟨-, -, -, hclosure⟩ := resolve_gives_closure haccepted ["even"]
  obtain ⟨order, -, horder, hnodup, hmem, -⟩ := hclosure _ _ hresolve
  exact ⟨haccepted, hresolve, order, horder, hnodup, hmem⟩

/-- Where no needed function needs itself, each one stands behind all that it needs. -/
theorem resolve_callees_first (h : ofParts m bodies = .ok l)
    (hdeclared : ∀ n, Needs l.manifest.functions names n → l.manifest.functions.contains n)
    (hacyclic : ∀ n, Needs l.manifest.functions names n →
      ¬TransGen (Calls l.manifest.functions) n n) :
    ∃ texts imports order, l.resolve names = .ok (texts, imports) ∧
      l.order names = .ok order ∧ order.Nodup ∧
      (∀ n, n ∈ order ↔ Needs l.manifest.functions names n) ∧
      List.Forall₂ (fun n b => l.bodies.get? n = some b) order texts ∧
      ∀ n ∈ order, ∀ b, TransGen (Calls l.manifest.functions) n b →
        b ∈ order ∧ order.idxOf b < order.idxOf n := by
  cases horder : l.order names with
  | error f =>
    obtain ⟨u, -, hneeded, hnone⟩ := exists_unknown_of_order horder
    obtain ⟨e, he⟩ := Table.contains_iff.mp (hdeclared u hneeded)
    cases hnone.symm.trans he
  | ok order =>
    have hspec := isOrder_of_ok horder
    -- a function that a callee needs would need itself
    have hdirect : ∀ n ∈ order, ∀ b, Calls l.manifest.functions n b →
        b ∈ order ∧ order.idxOf b < order.idxOf n := by
      intro n hn b hb
      obtain ⟨hmem, hbefore⟩ := hspec.callees n hn b hb
      refine ⟨hmem, hbefore.resolve_right fun hback => ?_⟩
      exact hacyclic n ((hspec.mem_iff n).mp hn) (.head' hb hback)
    obtain ⟨texts, imports, hresolve, hbodies, -⟩ :=
      resolve_of_order (isComplete_ofParts h) horder
    refine ⟨texts, imports, order, hresolve, rfl, hspec.nodup, hspec.mem_iff, hbodies, ?_⟩
    intro n hn b hb
    induction hb with
    | single hcall => exact hdirect n hn _ hcall
    | tail _ hcall ih =>
      obtain ⟨hmem, hlt⟩ := hdirect _ ih.1 _ hcall
      exact ⟨hmem, hlt.trans ih.2⟩

/-- Two functions that share a callee, and one that calls both. -/
def diamond : Library where
  manifest := {
    imports := .empty
    functions := .ofList [("base", ⟨[], []⟩), ("left", ⟨["base"], []⟩), ("right", ⟨["base"], []⟩),
      ("both", ⟨["right", "left"], []⟩)] }
  bodies := .ofList [("base", "(func $base)"), ("left", "(func $left)"),
    ("right", "(func $right)"), ("both", "(func $both)")]
  pages := ModuleText.defaultPages

theorem resolve_callees_first_diamond :
    ∃ texts imports order, diamond.resolve ["both", "left"] = .ok (texts, imports) ∧
      diamond.order ["both", "left"] = .ok order ∧
      order.idxOf "base" < order.idxOf "both" := by
  have haccepted : ofParts diamond.manifest diamond.bodies = .ok diamond := by rfl
  -- every call goes down one level at least, and to a declared function
  let level (n : String) : Nat := ["base", "left", "right", "both"].idxOf n
  have hcalls {a b : String} (h : Calls diamond.manifest.functions a b) :
      level b < level a ∧ diamond.manifest.functions.contains b := by
    obtain ⟨e, he, hb⟩ := h
    have hall : ∀ f ∈ diamond.manifest.functions.entries, ∀ b ∈ f.2.deps,
        level b < level f.1 ∧ diamond.manifest.functions.contains b := by decide +kernel
    exact hall (a, e) (Table.mem_of_get? he) b hb
  have hdeclared : ∀ n, Needs diamond.manifest.functions ["both", "left"] n →
      diamond.manifest.functions.contains n := by
    rintro n ⟨root, hroot, hpath⟩
    rcases hpath.cases_tail with rfl | ⟨a, -, hcall⟩
    · exact (by decide +kernel : ∀ r ∈ ["both", "left"],
        diamond.manifest.functions.contains r) n hroot
    · exact (hcalls hcall).2
  have hlevel {a b : String} (h : TransGen (Calls diamond.manifest.functions) a b) :
      level b < level a := by
    induction h with
    | single hcall => exact (hcalls hcall).1
    | tail _ hcall ih => exact (hcalls hcall).1.trans ih
  obtain ⟨texts, imports, order, hresolve, horder, -, hmem, -, hfirst⟩ :=
    resolve_callees_first haccepted hdeclared fun n _ h => Nat.lt_irrefl _ (hlevel h)
  have hboth : "both" ∈ order := (hmem "both").mpr ⟨"both", .head _, .refl⟩
  have hbase : TransGen (Calls diamond.manifest.functions) "both" "base" :=
    .tail (.single (b := "left") (by decide +kernel)) (by decide +kernel)
  exact ⟨texts, imports, order, hresolve, horder, (hfirst "both" hboth "base" hbase).2⟩

end Library

end OpcodeConformance
