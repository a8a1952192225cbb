import OpcodeConformance.Proofs.Contract.Refusal

namespace OpcodeConformance

open Wasm

theorem Binary.isValid_of_load {code : Binary} {m : Module} (h : code.load = .ok m) :
    m.isValid = true := by
  cases code with
  | unmarked content hmark => cases h
  | malformed => cases h
  | compiled m' =>
    rw [load] at h
    split at h
    · rename_i hvalid
      cases h
      exact hvalid
    · cases h

namespace Wasm

variable {η : Type} {m : Module} {name : String} {n : Nat}

theorem Instance.module_start {host : Host η} {state : η} {i : Instance η}
    (h : Instance.start host m state = .ok i) : i.program.module = m := by
  unfold Instance.start at h
  obtain ⟨imports, -, h⟩ := Results.bind_eq_ok h
  obtain ⟨s, -, h⟩ := Results.bind_eq_ok h
  obtain ⟨s', -, h⟩ := Results.bind_eq_ok h
  cases h
  rfl

theorem Module.exists_type_of_export (h : m.isValid = true)
    (hn : m.exportedFunction? name = some n) : ∃ type, m.functionTypes[n]? = some type := by
  have hall : m.exports.all (fun e => m.hasTarget e.target) = true := by
    simp only [isValid, Bool.and_eq_true] at h
    exact h.1.1.1.1.2
  have htarget : m.target? name = some (.function n) := by
    unfold exportedFunction? at hn
    split at hn
    · rename_i htarget
      cases hn
      exact htarget
    · cases hn
  obtain ⟨e, he, hfunction⟩ := Option.map_eq_some_iff.mp htarget
  have hlt : m.hasTarget e.target = true := List.all_eq_true.mp hall e (List.mem_of_find?_eq_some he)
  rw [hfunction] at hlt
  exact ⟨_, List.getElem?_eq_getElem (of_decide_eq_true hlt)⟩

end Wasm

namespace Contract

variable {c : Contract} {m : Message} {i : Instance HostState}

theorem isValid_instantiate (h : c.instantiate m = .ok i) : i.program.module.isValid = true := by
  unfold instantiate at h
  obtain ⟨e, -, h⟩ := Results.bind_eq_ok h
  obtain ⟨module, hload, h⟩ := Results.bind_eq_ok h
  obtain ⟨j, hj, h⟩ := Results.bind_eq_ok h
  split at h
  · cases h
    rw [Instance.module_start (Results.mapError_eq_ok hj)]
    exact Binary.isValid_of_load hload
  · cases h

theorem isValid_dispatch (h : c.dispatch m = .ok i) : i.program.module.isValid = true := by
  unfold dispatch at h
  obtain ⟨j, hj, h⟩ := Results.bind_eq_ok h
  have hvalid := isValid_instantiate hj
  split at h
  · split at h
    · rename_i k hk
      cases h
      have hprogram := Instance.run_program entryName [] j
      rw [hk] at hprogram
      exact hprogram ▸ hvalid
    · cases h
  · cases h
    exact hvalid

/-- The live instance, if there is one, runs a valid module. -/
def IsValid (c : Contract) : Prop := ∀ i, c.live = some i → i.program.module.isValid = true

theorem isValid_new (code : Binary) (t : StateTree) (account : Address) :
    (Contract.new code t account).IsValid := by
  intro i hi
  cases hi

theorem IsValid.use (h : c.IsValid) (u : Use) : (c.use u).IsValid := by
  intro j hj
  obtain ⟨i, hi, hju⟩ := exists_of_live_use hj
  have hvalid : (i.use u).program.module.isValid = true :=
    (Instance.use_program u i).symm ▸ h i hi
  obtain rfl | ⟨rfl, -⟩ := hju
  · exact hvalid
  · exact hvalid

theorem IsValid.receive (h : c.IsValid) (m : Message) : (c.receive m).2.IsValid := by
  intro j hj
  cases hr : (c.receive m).1 with
  | ok v =>
    obtain ⟨i, hi, -, hstate⟩ := receive_ok hr
    rw [hstate] at hj
    cases hj
    have hvalid : i.program.module.isValid = true := isValid_dispatch hi
    exact hvalid
  | error f =>
    obtain ⟨-, hstate⟩ | ⟨i, -, -, -, hstate⟩ := receive_error hr
    · rw [hstate] at hj
      exact h j hj
    · rw [hstate] at hj
      obtain ⟨k, hk, rfl⟩ := Option.map_eq_some_iff.mp hj
      exact h k hk

theorem IsValid.moved (h : c.IsValid) (xs : List Move) : (c.moved xs).IsValid := by
  induction xs generalizing c with
  | nil => exact h
  | cons x xs ih =>
    cases x with
    | receive m => exact ih (h.receive m)
    | use u => exact ih (h.use u)

end Contract

end OpcodeConformance
