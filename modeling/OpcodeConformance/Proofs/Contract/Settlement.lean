import OpcodeConformance.Proofs.Contract.Accounting

namespace OpcodeConformance.Contract

/-- What is staged behind effects, `r` being staged before them. The last that stages anything
wins. -/
def restaged (r : Response) (es : List Effect) : Response :=
  ((es.filterMap Effect.response?).getLast?).getD r

/-- The place of the first effect that brings the charges above an amount of gas. -/
def overcharge? (gas : Nat) (es : List Effect) : Option Nat :=
  (List.range es.length).find? fun j => gas < charged (es.take (j + 1))

variable {c d : Contract} {e : Effect} {es fs : List Effect} {gas j : Nat}

theorem charged_take_succ (h : es[j]? = some e) :
    charged (es.take (j + 1)) = charged (es.take j) + e.charge := by
  rw [List.take_add_one, h, charged_append]
  rfl

theorem exists_of_overcharge? (h : overcharge? gas es = some j) :
    ∃ e, es[j]? = some e ∧ charged (es.take j) ≤ gas ∧ gas < charged (es.take j) + e.charge := by
  obtain ⟨hover, hmem, hfirst⟩ := List.find?_range_eq_some.mp h
  have hj : j < es.length := List.mem_range.mp hmem
  have he : es[j]? = some es[j] := List.getElem?_eq_getElem hj
  refine ⟨es[j], he, ?_, charged_take_succ he ▸ of_decide_eq_true hover⟩
  cases j with
  | zero => exact Nat.zero_le _
  | succ i =>
    have hi := hfirst i (Nat.lt_succ_self i)
    simpa using hi

theorem charged_le_of_overcharge? (h : overcharge? gas es = none) : charged es ≤ gas := by
  rcases Nat.eq_zero_or_pos es.length with hnil | hpos
  · rw [List.length_eq_zero_iff.mp hnil]
    exact Nat.zero_le _
  · have hlast := List.find?_eq_none.mp h (es.length - 1) (List.mem_range.mpr (by omega))
    rw [Nat.sub_add_cancel hpos, List.take_length] at hlast
    simpa using hlast

theorem apply_of_lt (h : c.gasLeft.toNat < e.charge) :
    ∃ amount, e = .useGas amount ∧
      c.apply e = (.error (.outOfGas amount c.gasLeft), { c with gasLeft := 0 }) := by
  cases e with
  | useGas amount =>
    have hlt : c.gasLeft < amount := UInt64.lt_iff_toNat_lt.mpr h
    exact ⟨amount, rfl, if_pos hlt⟩
  | finish payload => exact absurd h (Nat.not_lt_zero _)
  | revert payload => exact absurd h (Nat.not_lt_zero _)

theorem applyAll_append_of_ok (h : c.applyAll es = (.ok (), d)) :
    c.applyAll (es ++ fs) = d.applyAll fs := by
  induction es generalizing c with
  | nil =>
    cases h
    rfl
  | cons e es ih =>
    rw [applyAll] at h
    rw [List.cons_append, applyAll]
    rcases happly : c.apply e with ⟨_ | _, c'⟩
    · rw [happly] at h
      cases h
    · rw [happly] at h
      exact ih h

/-- Effects are applied up to the first that charges too much, and no further. -/
theorem applyAll_of_overcharge? (h : overcharge? c.gasLeft.toNat es = some j) :
    ∃ amount, es[j]? = some (.useGas amount) ∧
      c.applyAll es = (.error (.outOfGas amount (leftOf c.gasLeft (charged (es.take j)))), { c with
        gasLeft := 0, response := restaged c.response (es.take j) }) := by
  obtain ⟨e, he, hwithin, hover⟩ := exists_of_overcharge? h
  have happlied := applyAll_of_le hwithin
  -- the charge of this effect is above what those before it have left
  obtain ⟨amount, rfl, hfails⟩ := apply_of_lt (e := e)
    (c := { c with
      gasLeft := leftOf c.gasLeft (charged (es.take j))
      response := restaged c.response (es.take j) })
    (by rw [toNat_leftOf]; omega)
  have hsplit : es = es.take j ++ .useGas amount :: es.drop (j + 1) := by
    obtain ⟨hj, hget⟩ := List.getElem?_eq_some_iff.mp he
    rw [← hget, ← List.drop_eq_getElem_cons hj, List.take_append_drop]
  refine ⟨amount, he, ?_⟩
  rw [hsplit, applyAll_append_of_ok happlied, ← hsplit]
  change applyAll (_ :: _) { c with gasLeft := _, response := restaged _ _ } = _
  rw [applyAll, hfails]

/-- Settling takes all effects from the queue, whether or not all can be applied. -/
theorem settle_of_queue (h : c.queue = some es) :
    c.settle = { c with queue := some [] }.applyAll es := by
  unfold settle
  rw [h]

/-- Settled once, a contract has nothing left to settle. -/
theorem settle_settle (h : c.queue = some es) : c.settle.2.settle = (.ok (), c.settle.2) := by
  obtain ⟨gas, response, hframe⟩ := applyAll_frame es { c with queue := some [] }
  rw [settle_of_queue h, hframe]
  rfl

/-- Effects up to the first overcharge are applied, each prefix of them with exact gas. The
overcharge takes all gas and is told with what was left, the effects behind it are lost, and
settling again changes nothing. -/
theorem settle_up_to_overcharge (h : c.queue = some es) :
    (∀ k, charged (es.take k) ≤ c.gasLeft.toNat → ∃ left : UInt64,
      left.toNat + charged (es.take k) = c.gasLeft.toNat ∧
        { c with queue := some [] }.applyAll (es.take k) = (.ok (), { c with
          queue := some [], gasLeft := left, response := restaged c.response (es.take k) })) ∧
      (overcharge? c.gasLeft.toNat es = none → ∃ left : UInt64,
        left.toNat + charged es = c.gasLeft.toNat ∧
          c.settle = (.ok (), { c with
            queue := some [], gasLeft := left, response := restaged c.response es })) ∧
      (∀ j, overcharge? c.gasLeft.toNat es = some j → ∃ amount left : UInt64,
        es[j]? = some (.useGas amount) ∧
          left.toNat + charged (es.take j) = c.gasLeft.toNat ∧
          c.settle = (.error (.outOfGas amount left), { c with
            queue := some [], gasLeft := 0, response := restaged c.response (es.take j) })) ∧
      c.settle.2.settle = (.ok (), c.settle.2) := by
  refine ⟨fun k hk => ?_, fun hnone => ?_, fun j hj => ?_, settle_settle h⟩
  · refine ⟨leftOf c.gasLeft (charged (es.take k)), ?_, applyAll_of_le hk⟩
    rw [toNat_leftOf, Nat.sub_add_cancel hk]
  · have hwithin := charged_le_of_overcharge? hnone
    refine ⟨leftOf c.gasLeft (charged es), ?_, (settle_of_queue h).trans (applyAll_of_le hwithin)⟩
    rw [toNat_leftOf, Nat.sub_add_cancel hwithin]
  · obtain ⟨-, -, hwithin, -⟩ := exists_of_overcharge? hj
    obtain ⟨amount, he, hfails⟩ :=
      applyAll_of_overcharge? (c := { c with queue := some [] }) hj
    refine ⟨amount, leftOf c.gasLeft (charged (es.take j)), he, ?_, ?_⟩
    · rw [toNat_leftOf, Nat.sub_add_cancel hwithin]
    · exact (settle_of_queue h).trans hfails

/-- The third effect charges nine of seven. What the first return has staged stays, and the revert
behind the charge is lost. -/
theorem settle_up_to_overcharge_mixed :
    let c : Contract := { meterContract with
      queue := some [.useGas 3, .finish [1], .useGas 9, .revert [2]], gasLeft := 10 }
    ∃ left : UInt64, left.toNat + 3 = 10 ∧
      c.settle = (.error (.outOfGas 9 left), { c with
        queue := some [], gasLeft := 0, response := ⟨some [1], false⟩ }) ∧
      c.settle.2.settle = (.ok (), c.settle.2) := by
  intro c
  have hqueue : c.queue = some [.useGas 3, .finish [1], .useGas 9, .revert [2]] := rfl
  obtain ⟨-, -, hover, hagain⟩ := settle_up_to_overcharge hqueue
  obtain ⟨amount, left, hcharge, hleft, hsettle⟩ := hover 2 (by decide)
  cases hcharge
  exact ⟨left, hleft, hsettle, hagain⟩

end OpcodeConformance.Contract
