import OpcodeConformance.Proofs.Library.Resolution

namespace OpcodeConformance

namespace Library

/-- The libraries that can be had: made of parts or read from a folder, with any number of pages. -/
inductive IsAccepted : Library → Prop
  | ofParts {m bodies l} (h : ofParts m bodies = .ok l) (pages : Nat) : IsAccepted { l with pages }
  | read {t folder l} (h : read t folder = .ok l) (pages : Nat) : IsAccepted { l with pages }

variable {l : Library} {t : FileTree} {folder : String} {names order : List String}

/-- What is read from a folder has been checked like any other parts. -/
theorem exists_ofParts_of_read (h : read t folder = .ok l) :
    ∃ m bodies, Library.ofParts m bodies = .ok l := by
  obtain ⟨text, -, h⟩ := Results.bind_eq_ok h
  obtain ⟨m, -, h⟩ := Results.bind_eq_ok h
  obtain ⟨bodies, -, h⟩ := Results.bind_eq_ok h
  exact ⟨m, .ofList bodies, h⟩

theorem IsAccepted.isComplete (h : l.IsAccepted) : l.IsComplete := by
  -- the check does not look at the number of pages
  have hpages {l : Library} (hl : l.IsComplete) (pages : Nat) : { l with pages }.IsComplete :=
    ⟨hl.body, hl.imports⟩
  cases h with
  | ofParts h pages => exact hpages (isComplete_ofParts h) pages
  | read h pages =>
    obtain ⟨m, bodies, h⟩ := exists_ofParts_of_read h
    exact hpages (isComplete_ofParts h) pages

/-- While functions are resolved, every body, every entry of a function and every import is there
that is looked up, and what is found is what they are resolved to. The only way to fail is an unknown
function. -/
theorem resolve_finds_what_it_looks_up (h : l.IsAccepted) (names : List String) :
    (∀ order, l.order names = .ok order → ∃ texts imports,
      l.resolve names = .ok (texts, imports) ∧
      List.Forall₂ (fun n b => l.bodies.get? n = some b) order texts ∧
      (∀ n ∈ order, ∃ e, l.manifest.functions.get? n = some e) ∧
      List.Forall₂ (fun u t => l.manifest.imports.get? u.2 = some t) (l.uses order) imports) ∧
    ∀ f, l.resolve names = .error f → ∃ u, f = .unknownFunction u := by
  have hl := h.isComplete
  refine ⟨fun order horder => ?_, fun f hf => ?_⟩
  · obtain ⟨texts, imports, hresolve, htexts, himports⟩ := resolve_of_order hl horder
    exact ⟨texts, imports, hresolve, htexts, (isOrder_of_ok horder).declared,
      List.forall₂_map_left_iff.mp himports⟩
  · cases horder : l.order names with
    | ok order =>
      obtain ⟨texts, imports, hresolve, -⟩ := resolve_of_order hl horder
      cases hf.symm.trans hresolve
    | error f' =>
      cases hf.symm.trans (resolve_of_order_error horder)
      obtain ⟨u, hu, -⟩ := exists_unknown_of_order horder
      exact ⟨u, hu⟩

/-- A function that calls itself twice, one that calls it and a function that nobody has declared,
and a body without a function. -/
def stray : Library where
  manifest := {
    imports := .ofList [("gas", "(import gas)")]
    functions := .ofList [("again", ⟨["again", "again"], ["gas", "gas"]⟩),
      ("astray", ⟨["again", "nowhere"], []⟩)] }
  bodies := .ofList [("again", "(func $again)"), ("astray", "(func $astray)"),
    ("orphan", "(func $orphan)")]
  pages := ModuleText.defaultPages

theorem resolve_finds_what_it_looks_up_stray :
    stray.IsAccepted ∧
    (∃ texts imports, stray.resolve ["again"] = .ok (texts, imports) ∧
      List.Forall₂ (fun n b => stray.bodies.get? n = some b) ["again"] texts) ∧
    ∃ f u, stray.resolve ["again", "astray", "orphan"] = .error f ∧ f = .unknownFunction u := by
  have hparts : ofParts stray.manifest stray.bodies = .ok stray := rfl
  have haccepted : stray.IsAccepted := .ofParts hparts stray.pages
  have horder : stray.order ["again"] = .ok ["again"] := by decide +kernel
  have hfails : stray.resolve ["again", "astray", "orphan"] =
      .error (.unknownFunction "nowhere") := by decide +kernel
  obtain ⟨texts, imports, hresolve, htexts, -⟩ :=
    (resolve_finds_what_it_looks_up haccepted ["again"]).1 _ horder
  obtain ⟨u, hu⟩ := (resolve_finds_what_it_looks_up haccepted _).2 _ hfails
  exact ⟨haccepted, ⟨texts, imports, hresolve, htexts⟩, _, u, hfails, hu⟩

end Library

end OpcodeConformance
