import OpcodeConformance.Proofs.Contract.Settlement

namespace OpcodeConformance.Contract

/-- The effects that a use raises. -/
def raisedIn (c : Contract) : Use → List Effect
  | .call name params => c.live.elim [] fun i => (drain (Call.run name params i).2).1
  | .write _ _ => []
  | .settle => []

def raisedBy (c : Contract) : List Use → List Effect
  | [] => []
  | u :: us => c.raisedIn u ++ (c.use u).raisedBy us

variable {c : Contract} {es fs : List Effect} {us vs : List Use} {u : Use} {r : Response}

theorem raisedBy_append (c : Contract) (us vs : List Use) :
    c.raisedBy (us ++ vs) = c.raisedBy us ++ (c.used us).raisedBy vs := by
  induction us generalizing c with
  | nil => rfl
  | cons u us ih =>
    rw [List.cons_append, raisedBy, raisedBy, ih, List.append_assoc]
    rfl

/-- Until it is settled, what a use raises waits behind what waits already. -/
theorem queue_use (hu : u ≠ .settle) (c : Contract) :
    (c.use u).queue = c.queue.map (· ++ c.raisedIn u) := by
  cases u with
  | settle => exact absurd rfl hu
  | call name params =>
    simp only [use, call, raisedIn]
    cases c.live with
    | none => simp
    | some i => rfl
  | write offset bs =>
    simp only [use, write, raisedIn]
    cases c.live <;> simp

theorem queue_used (h : .settle ∉ us) (c : Contract) :
    (c.used us).queue = c.queue.map (· ++ c.raisedBy us) := by
  induction us generalizing c with
  | nil => simp [raisedBy]
  | cons u us ih =>
    obtain ⟨hu, hus⟩ := List.ne_and_not_mem_of_not_mem_cons h
    rw [used_cons, ih hus, queue_use hu.symm, raisedBy, Option.map_map]
    congr 1
    funext waiting
    exact List.append_assoc _ _ _

def Unstaged (es : List Effect) : Prop := ∀ x ∈ es, x.response? = none

theorem Unstaged.append (h : Unstaged es) (h' : Unstaged fs) : Unstaged (es ++ fs) := by
  intro x hx
  rcases List.mem_append.mp hx with hx | hx
  · exact h x hx
  · exact h' x hx

theorem restaged_of_unstaged (h : Unstaged es) (r : Response) : restaged r es = r := by
  rw [restaged, List.filterMap_eq_nil_iff.mpr h]
  rfl

/-- The last effect that stages something wins. -/
theorem restaged_of_last {e : Effect} (he : e.response? = some r) (hfs : Unstaged fs)
    (q : Response) : restaged q (es ++ [e] ++ fs) = r := by
  have hlast : [e].filterMap Effect.response? = [r] := by simp [he]
  rw [restaged, List.filterMap_append, List.filterMap_append, List.filterMap_eq_nil_iff.mpr hfs,
    hlast, List.append_nil, List.getLast?_concat, Option.getD_some]

theorem exists_response_applyAll (es : List Effect) (c : Contract) :
    ∃ k, (c.applyAll es).2.response = restaged c.response (es.take k) := by
  cases hover : overcharge? c.gasLeft.toNat es with
  | none =>
    refine ⟨es.length, ?_⟩
    rw [applyAll_of_le (charged_le_of_overcharge? hover), List.take_length]
    rfl
  | some j =>
    obtain ⟨amount, -, happlied⟩ := applyAll_of_overcharge? hover
    exact ⟨j, by rw [happlied]⟩

theorem response_applyAll_of_ok (h : (c.applyAll es).1 = .ok ()) :
    (c.applyAll es).2.response = restaged c.response es := by
  cases hover : overcharge? c.gasLeft.toNat es with
  | none =>
    rw [applyAll_of_le (charged_le_of_overcharge? hover)]
    rfl
  | some j =>
    obtain ⟨amount, -, happlied⟩ := applyAll_of_overcharge? hover
    rw [happlied] at h
    cases h

theorem queue_settle (hqueue : c.queue = some es) : c.settle.2.queue = some [] := by
  obtain ⟨gas, response, hframe⟩ := applyAll_frame es { c with queue := some [] }
  rw [settle_of_queue hqueue, hframe]

/-- A use keeps what is staged, if nothing waits that stages anything, and raises nothing that
does. -/
theorem response_use_of_unstaged (hqueue : c.queue = some es) (hes : Unstaged es)
    (hu : Unstaged (c.raisedIn u)) :
    (c.use u).response = c.response ∧ ∃ fs, (c.use u).queue = some fs ∧ Unstaged fs := by
  by_cases hsettle : u = .settle
  · subst hsettle
    obtain ⟨k, hresponse⟩ := exists_response_applyAll es { c with queue := some [] }
    refine ⟨?_, [], queue_settle hqueue, fun _ hx => absurd hx List.not_mem_nil⟩
    rw [use, settle_of_queue hqueue, hresponse]
    exact restaged_of_unstaged (fun x hx => hes x (List.mem_of_mem_take hx)) _
  · refine ⟨(use_gasLeft hsettle c).2, es ++ c.raisedIn u, ?_, hes.append hu⟩
    rw [queue_use hsettle, hqueue]
    rfl

theorem response_used_of_unstaged (hqueue : c.queue = some es) (hes : Unstaged es)
    (hus : Unstaged (c.raisedBy us)) : (c.used us).response = c.response := by
  induction us generalizing c es with
  | nil => rfl
  | cons u us ih =>
    rw [raisedBy] at hus
    obtain ⟨hresponse, fs, hfs, hunstaged⟩ := response_use_of_unstaged hqueue hes
      fun x hx => hus x (List.mem_append_left _ hx)
    rw [used_cons, ih hfs hunstaged fun x hx => hus x (List.mem_append_right _ hx), hresponse]

/-- The last effect that stages something among those that wait stays staged from the first settling
on, if that one goes through. Until then, and after it, the contract may be used in any way that
stages nothing else. -/
theorem response_used_of_staged {e : Effect} (he : e.response? = some r)
    (hqueue : c.queue = some (es ++ [e])) (hus : .settle ∉ us)
    (hsettled : (c.used us).settle.1 = .ok ())
    (hraised : Unstaged (c.raisedBy (us ++ .settle :: vs))) :
    (c.used (us ++ .settle :: vs)).response = r := by
  rw [raisedBy_append] at hraised
  have hbefore : Unstaged (c.raisedBy us) := fun x hx => hraised x (List.mem_append_left _ hx)
  have hafter : Unstaged ((c.used us).settle.2.raisedBy vs) :=
    fun x hx => hraised x (List.mem_append_right _ hx)
  have hwaiting : (c.used us).queue = some (es ++ [e] ++ c.raisedBy us) := by
    rw [queue_used hus, hqueue]
    rfl
  have hnone : Unstaged [] := fun _ hx => absurd hx List.not_mem_nil
  rw [used_append, used_cons, use,
    response_used_of_unstaged (queue_settle hwaiting) hnone hafter, settle_of_queue hwaiting]
  rw [settle_of_queue hwaiting] at hsettled
  rw [response_applyAll_of_ok hsettled]
  exact restaged_of_last he hbefore _

end OpcodeConformance.Contract
