import OpcodeConformance.Proofs.Library.Resolution
import OpcodeConformance.Synthesis

namespace OpcodeConformance

namespace Library

/-- The second library has what the first one has for some names: the entry of every function that
they need there, whether it is declared or not, its body, and the texts of the imports that it
uses. Both give their modules as much memory. -/
structure AgreesOn (l l' : Library) (names : List String) : Prop where
  pages : l.pages = l'.pages
  entry : ∀ n, Needs l.manifest.functions names n →
    l.manifest.functions.get? n = l'.manifest.functions.get? n
  body : ∀ n, Needs l.manifest.functions names n → l.bodies.get? n = l'.bodies.get? n
  imports : ∀ n, Needs l.manifest.functions names n → ∀ i ∈ l.imported n,
    l.manifest.imports.get? i = l'.manifest.imports.get? i

variable {functions functions' : Table String FunctionEntry} {names order : List String}
  {name n : String} {w : Walk} {r : Except LibraryError Walk} {l l' : Library}

/-- What is needed by what a function calls is needed by the function. -/
theorem Needs.of_deps {e : FunctionEntry} (he : functions.get? name = some e)
    (h : Needs functions e.deps n) : Needs functions (name :: names) n := by
  obtain ⟨dep, hdep, hpath⟩ := h
  exact ⟨name, .head _, .head ⟨e, he, hdep⟩ hpath⟩

/-- A walk never looks at a function that is not needed. -/
theorem Walks.congr (h : Walks functions names w r)
    (hagree : ∀ n, Needs functions names n → functions.get? n = functions'.get? n) :
    Walks functions' names w r := by
  induction h with
  | nil => exact .nil
  | met hmet _ ih => exact .met hmet (ih fun n hn => hagree n (hn.mono (List.subset_cons_self _ _)))
  | @unknown _ name _ hnew hnone =>
    exact .unknown hnew ((hagree name ⟨name, .head _, .refl⟩).symm.trans hnone)
  | @failed _ name _ _ _ hnew he _ ih =>
    have he' := (hagree name ⟨name, .head _, .refl⟩).symm.trans he
    exact .failed hnew he' (ih fun n hn => hagree n (hn.of_deps he))
  | @done _ name _ _ _ _ hnew he _ _ ih ihrest =>
    have he' := (hagree name ⟨name, .head _, .refl⟩).symm.trans he
    exact .done hnew he' (ih fun n hn => hagree n (hn.of_deps he))
      (ihrest fun n hn => hagree n (hn.mono (List.subset_cons_self _ _)))

namespace AgreesOn

theorem order_eq (h : l.AgreesOn l' names) : l.order names = l'.order names := by
  obtain ⟨r, hwalks, horder⟩ := exists_walks l names
  obtain ⟨r', hwalks', horder'⟩ := exists_walks l' names
  have hsame := hwalks.congr fun n hn => h.entry n (needs_roots_iff.mp hn)
  rw [horder, horder', hsame.unique hwalks']

variable (h : l.AgreesOn l' names) (horder : ∀ n ∈ order, Needs l.manifest.functions names n)
include h horder

theorem bodies_eq : order.mapM l.body = order.mapM l'.body := by
  refine Results.mapM_congr fun n hn => ?_
  rw [Library.body, Library.body, h.body n (horder n hn)]

theorem uses_eq : l.uses order = l'.uses order := by
  unfold uses
  rw [List.flatMap_congr fun n hn => by rw [h.entry n (horder n hn)]]

theorem importTexts_eq : (l.uses order).mapM l.importText = (l'.uses order).mapM l'.importText := by
  rw [← h.uses_eq horder]
  refine Results.mapM_congr fun u hu => ?_
  have hused := ((listsFirsts_uses l order).mem_iff u.2).mp (List.mem_map_of_mem hu)
  obtain ⟨n, hn, hi⟩ := List.mem_flatMap.mp hused
  rw [importText, importText, h.imports n (horder n hn) u.2 hi]

omit horder in
theorem resolve_eq : l.resolve names = l'.resolve names := by
  rw [resolve, resolve, ← h.order_eq]
  cases hresult : l.order names with
  | error f => rfl
  | ok order =>
    have hneeded : ∀ n ∈ order, Needs l.manifest.functions names n :=
      fun n hn => ((isOrder_of_ok hresult).mem_iff n).mp hn
    change (do
      let bodies ← order.mapM l.body
      let imports ← (l.uses order).mapM l.importText
      return (bodies, imports)) = _
    rw [h.bodies_eq hneeded, h.importTexts_eq hneeded]
    rfl

end AgreesOn

/-- What is not needed for an opcode does not matter to its module. -/
theorem moduleText_of_agreesOn {op : String} (h : l.AgreesOn l' [op]) :
    Synthesis.moduleText l.compiler op = Synthesis.moduleText l'.compiler op := by
  have hbuild : l.build = l'.build := by
    funext functions imports exports
    rw [build, build, h.pages]
  have hcompiler : l.compiler.resolve [op] = l'.compiler.resolve [op] := h.resolve_eq
  rw [Synthesis.moduleText, Synthesis.moduleText, hcompiler, compiler, compiler, hbuild]

/-- The functions of `parity` among others, of which one calls them, and one calls a function that is
not declared. -/
def crowd : Library where
  manifest := {
    imports := .ofList [("gas", "(import gas)"), ("log", "(import log)"),
      ("time", "(import time)"), ("random", "(import random)")]
    functions := .ofList [("both", ⟨["odd", "even"], ["random"]⟩),
      ("even", ⟨["odd", "even"], ["gas", "log"]⟩), ("odd", ⟨["even"], ["time", "gas"]⟩),
      ("prime", ⟨["sieve"], ["random"]⟩)] }
  bodies := .ofList [("both", "(func $both)"), ("even", "(func $even)"), ("odd", "(func $odd)"),
    ("prime", "(func $prime)"), ("spare", "(func $spare)")]
  pages := ModuleText.defaultPages

theorem moduleText_of_agreesOn_crowd :
    ofParts parity.manifest parity.bodies = .ok parity ∧
      ofParts crowd.manifest crowd.bodies = .ok crowd ∧
      parity.AgreesOn crowd ["even"] ∧ parity.order ["both"] ≠ crowd.order ["both"] ∧
      Synthesis.moduleText parity.compiler "even" = Synthesis.moduleText crowd.compiler "even" := by
  have horder : parity.order ["even"] = .ok ["odd", "even"] := by decide +kernel
  have hneeded : ∀ n, Needs parity.manifest.functions ["even"] n → n ∈ ["odd", "even"] :=
    fun n hn => ((isOrder_of_ok horder).mem_iff n).mpr hn
  have hagree : parity.AgreesOn crowd ["even"] := {
    pages := rfl
    entry := fun n hn => (by decide +kernel : ∀ n ∈ ["odd", "even"],
      parity.manifest.functions.get? n = crowd.manifest.functions.get? n) n (hneeded n hn)
    body := fun n hn => (by decide +kernel : ∀ n ∈ ["odd", "even"],
      parity.bodies.get? n = crowd.bodies.get? n) n (hneeded n hn)
    imports := fun n hn => (by decide +kernel : ∀ n ∈ ["odd", "even"], ∀ i ∈ parity.imported n,
      parity.manifest.imports.get? i = crowd.manifest.imports.get? i) n (hneeded n hn) }
  exact ⟨by rfl, by rfl, hagree, by decide +kernel, moduleText_of_agreesOn hagree⟩

end Library

end OpcodeConformance
