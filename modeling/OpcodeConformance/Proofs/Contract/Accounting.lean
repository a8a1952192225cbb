import Mathlib.Algebra.Ring.Nat
import OpcodeConformance.Proofs.Contract.Runs

namespace OpcodeConformance

open Wasm

def Effect.response? : Effect → Option Response
  | useGas _ => none
  | finish payload => some ⟨some payload, false⟩
  | revert payload => some ⟨some payload, true⟩

namespace Contract

def charged (es : List Effect) : Nat := (es.map Effect.charge).sum

/-- What the last effect that stages anything has staged. -/
def staged (es : List Effect) : Response := ((es.filterMap Effect.response?).getLast?).getD .none

/-- The effects that are raised by the entry function for a message and by the uses that follow. -/
def raisedSince (c : Contract) (m : Message) (us : List Use) : List Effect :=
  match c.dispatch m with
  | .ok i => (i.used us).raised
  | .error _ => []

@[simp] theorem charged_nil : charged [] = 0 := rfl

@[simp] theorem charged_cons (e : Effect) (es : List Effect) :
    charged (e :: es) = e.charge + charged es := rfl

theorem charged_append (es fs : List Effect) : charged (es ++ fs) = charged es + charged fs := by
  simp only [charged, List.map_append, List.sum_append]

theorem charged_mono {es fs : List Effect} (h : es <+: fs) : charged es ≤ charged fs := by
  obtain ⟨gs, rfl⟩ := h
  rw [charged_append]
  exact Nat.le_add_right _ _

theorem staged_append (es fs : List Effect) :
    staged (es ++ fs) = ((fs.filterMap Effect.response?).getLast?).getD (staged es) := by
  simp only [staged, List.filterMap_append, List.getLast?_append]
  cases (fs.filterMap Effect.response?).getLast? <;> rfl

def leftOf (gas : UInt64) (charges : Nat) : UInt64 := UInt64.ofNat (gas.toNat - charges)

theorem toNat_leftOf (gas : UInt64) (charges : Nat) :
    (leftOf gas charges).toNat = gas.toNat - charges :=
  UInt64.toNat_ofNat_of_lt' (Nat.lt_of_le_of_lt (Nat.sub_le _ _) gas.toNat_lt)

@[simp] theorem leftOf_zero (gas : UInt64) : leftOf gas 0 = gas := UInt64.ofNat_toNat

theorem leftOf_leftOf (gas : UInt64) (a b : Nat) :
    leftOf (leftOf gas a) b = leftOf gas (a + b) := by
  rw [leftOf, toNat_leftOf, leftOf, Nat.sub_sub]

theorem sub_eq_leftOf {gas amount : UInt64} (h : amount.toNat ≤ gas.toNat) :
    gas - amount = leftOf gas amount.toNat := by
  apply UInt64.toNat_inj.mp
  rw [toNat_leftOf, UInt64.toNat_sub_of_le _ _ (UInt64.le_iff_toNat_le.mpr h)]

theorem apply_of_le {e : Effect} {c : Contract} (h : e.charge ≤ c.gasLeft.toNat) :
    c.apply e = (.ok (), { c with
      gasLeft := leftOf c.gasLeft e.charge, response := e.response?.getD c.response }) := by
  cases e with
  | useGas amount =>
    have hlt : ¬c.gasLeft < amount := by
      rw [UInt64.lt_iff_toNat_lt]
      exact Nat.not_lt.mpr h
    simp only [apply, hlt, if_false, Effect.charge, Effect.response?, Option.getD_none,
      sub_eq_leftOf h]
  | finish payload => simp [apply, Effect.charge, Effect.response?]
  | revert payload => simp [apply, Effect.charge, Effect.response?]

/-- Within the gas that is left all effects are applied. -/
theorem applyAll_of_le {es : List Effect} {c : Contract} (h : charged es ≤ c.gasLeft.toNat) :
    c.applyAll es = (.ok (), { c with
      gasLeft := leftOf c.gasLeft (charged es)
      response := ((es.filterMap Effect.response?).getLast?).getD c.response }) := by
  induction es generalizing c with
  | nil => simp [applyAll]
  | cons e es ih =>
    rw [charged_cons] at h
    have hrest : charged es ≤ (leftOf c.gasLeft e.charge).toNat := by
      rw [toNat_leftOf]
      omega
    rw [applyAll, apply_of_le (by omega)]
    dsimp only
    rw [ih hrest]
    simp only [leftOf_leftOf, charged_cons, List.filterMap_cons]
    cases e.response? with
    | none => rfl
    | some r =>
      rw [List.getLast?_cons]
      cases (es.filterMap Effect.response?).getLast? <;> rfl

/-- The contract with an instance whose effects are applied up to some that wait. -/
def accounted (c : Contract) (gas : UInt64) (i : Instance HostState)
    (applied waiting : List Effect) : Contract :=
  { c with
    live := some i.drained
    queue := some waiting
    gasLeft := leftOf gas (charged applied)
    response := staged applied }

variable {c : Contract} {gas : UInt64} {i : Instance HostState} {applied waiting : List Effect}

/-- Settling applies what waits, if all charges are within the gas. -/
theorem settle_accounted (h : charged (applied ++ waiting) ≤ gas.toNat) :
    (c.accounted gas i applied waiting).settle =
      (.ok (), c.accounted gas i (applied ++ waiting) []) := by
  rw [charged_append] at h
  have hwaiting : charged waiting ≤ (leftOf gas (charged applied)).toNat := by
    rw [toNat_leftOf]
    omega
  simp only [settle, accounted]
  rw [applyAll_of_le hwaiting]
  simp only [leftOf_leftOf, charged_append, staged_append]

/-- What a call raises waits behind what waits already. Nothing else of the account changes. -/
theorem use_accounted (hi : i.IsLinked) {u : Use} (hu : u ≠ .settle) :
    (c.accounted gas i applied waiting).use u =
      c.accounted gas (i.use u) applied (waiting ++ (i.drained.use u).raised) := by
  have hdrained := (Instance.use_drained hi u).1
  cases u with
  | settle => exact absurd rfl hu
  | call name params =>
    simp only [use, call, accounted, ← hdrained]
    rfl
  | write offset bs =>
    have hnone : (i.drained.use (.write offset bs)).raised = [] :=
      congrArg HostState.raised (Instance.write_host offset bs i.drained)
    rw [hnone, List.append_nil]
    simp only [use, write, accounted, ← hdrained, Instance.drained_of_raised hnone]
    rfl

/-- A run that keeps within the gas leaves what is raised in two parts: what is applied, and what
waits. -/
theorem used_accounted (hi : i.IsLinked) (hraised : i.raised = applied ++ waiting)
    (us : List Use) (h : charged (i.used us).raised ≤ gas.toNat) :
    ∃ applied' waiting', (i.used us).raised = applied' ++ waiting' ∧
      (c.accounted gas i applied waiting).used us =
        c.accounted gas (i.used us) applied' waiting' := by
  induction us generalizing i applied waiting with
  | nil => exact ⟨applied, waiting, hraised, rfl⟩
  | cons u us ih =>
    simp only [Instance.used_cons, used_cons] at h ⊢
    by_cases hu : u = .settle
    · subst hu
      -- charges so far are a part of all charges
      have hnow : charged (applied ++ waiting) ≤ gas.toNat := by
        rw [← hraised]
        exact Nat.le_trans (charged_mono (Instance.raised_prefix_used hi us)) h
      have hsettled : (c.accounted gas i applied waiting).use .settle =
          c.accounted gas i (applied ++ waiting) [] := by
        rw [use, settle_accounted hnow]
      rw [hsettled]
      exact ih hi (hraised.trans (List.append_nil _).symm) h
    · rw [use_accounted hi hu]
      refine ih (hi.use u) ?_ h
      rw [(Instance.use_drained hi u).2, hraised, List.append_assoc]

/-- Gas and response change in no other way than by settling. -/
theorem use_gasLeft {u : Use} (hu : u ≠ .settle) (c : Contract) :
    (c.use u).gasLeft = c.gasLeft ∧ (c.use u).response = c.response := by
  cases u with
  | settle => exact absurd rfl hu
  | call name params =>
    simp only [use, call]
    cases c.live <;> exact ⟨rfl, rfl⟩
  | write offset bs =>
    simp only [use, write]
    cases c.live <;> exact ⟨rfl, rfl⟩

/-- A run within the gas that is settled at its end has applied all that was raised. -/
theorem used_settle (hi : i.IsLinked) (us : List Use)
    (h : charged (i.used us).raised ≤ gas.toNat) :
    ((c.accounted gas i [] i.raised).used us).settle =
      (.ok (), c.accounted gas (i.used us) (i.used us).raised []) := by
  obtain ⟨applied, waiting, hraised, hused⟩ :=
    used_accounted (c := c) hi (List.nil_append _).symm us h
  rw [hused, settle_accounted (hraised ▸ h), hraised]

theorem instance_used_filter (i : Instance HostState) (us : List Use) :
    i.used (us.filter (· ≠ .settle)) = i.used us := by
  induction us generalizing i with
  | nil => rfl
  | cons u us ih =>
    by_cases hu : u = .settle
    · subst hu
      exact ih i
    · rw [List.filter_cons_of_pos (by simpa using hu)]
      exact ih (i.use u)

theorem used_take_succ (c : Contract) {us : List Use} {k : Nat} {u : Use}
    (hk : us[k]? = some u) : c.used (us.take (k + 1)) = (c.used (us.take k)).use u := by
  rw [List.take_add_one, hk, used_append]
  rfl

theorem charged_take_le (hi : i.IsLinked) (us : List Use) (k : Nat) :
    charged (i.used (us.take k)).raised ≤ charged (i.used us).raised := by
  have hus : i.used us = (i.used (us.take k)).used (us.drop k) := by
    rw [Instance.used, ← List.take_append_drop k us, List.foldl_append, List.take_append_drop]
    rfl
  rw [hus]
  exact charged_mono (Instance.raised_prefix_used (hi.used _) _)

/-- As long as the charges since an accepted message are within its gas, every settling succeeds and
accounts for exactly what has been raised so far, nothing else changes gas or response, and runs
with the same calls and writes agree once they are settled. -/
theorem settlements_account_for_raised {m : Message} (h : (c.receive m).1 = .ok ()) (us : List Use)
    (hus : charged (c.raisedSince m us) ≤ m.gas.toNat) :
    let start := (c.receive m).2
    (∀ k, us[k]? = some .settle →
      let raised := c.raisedSince m (us.take k)
      ((start.used (us.take k)).settle).1 = .ok () ∧
        (start.used (us.take (k + 1))).gasLeft.toNat + charged raised = m.gas.toNat ∧
        (start.used (us.take (k + 1))).response = staged raised) ∧
      (∀ k u, us[k]? = some u → u ≠ .settle →
        (start.used (us.take (k + 1))).gasLeft = (start.used (us.take k)).gasLeft ∧
          (start.used (us.take (k + 1))).response = (start.used (us.take k)).response) ∧
      ∀ vs : List Use, vs.filter (· ≠ .settle) = us.filter (· ≠ .settle) →
        start.used (vs ++ [.settle]) = start.used (us ++ [.settle]) := by
  obtain ⟨i, hi, hlinked, hstart⟩ := receive_ok h
  have hraised (ws : List Use) : c.raisedSince m ws = (i.used ws).raised := by
    simp only [raisedSince, hi]
  have haccounted : (c.receive m).2 = c.accounted m.gas i [] i.raised := by
    rw [hstart, accounted, charged_nil, leftOf_zero]
    rfl
  simp only [hraised] at hus ⊢
  rw [haccounted]
  refine ⟨fun k hk => ?_, fun k u hk hu => ?_, fun vs hvs => ?_⟩
  · have hle := Nat.le_trans (charged_take_le hlinked us k) hus
    have hsettle := used_settle (c := c) hlinked (us.take k) hle
    rw [used_take_succ _ hk, use, hsettle]
    refine ⟨rfl, ?_, rfl⟩
    simp only [accounted, toNat_leftOf]
    omega
  · rw [used_take_succ _ hk]
    exact use_gasLeft hu _
  -- both runs do the same to the instance, and settling last accounts for all of it
  · have hsame : i.used vs = i.used us := by
      rw [← instance_used_filter, hvs, instance_used_filter]
    have hvs' : charged (i.used vs).raised ≤ m.gas.toNat := hsame ▸ hus
    rw [used_append, used_append, used_cons, used_cons, use, used_settle hlinked vs hvs', use,
      used_settle hlinked us hus, hsame]

/-- A run with a call that traps behind its charge. -/
theorem settlements_account_for_raised_meter :
    let start := (meterContract.receive ⟨.zero, [], 100⟩).2
    (start.used [.call "charge" [5], .settle]).gasLeft.toNat + 8 = 100 ∧
      start.used [.call "charge" [5], .call "waste" [7], .settle] =
        start.used [.call "charge" [5], .settle, .call "waste" [7], .settle] := by
  have haccepted : (meterContract.receive ⟨.zero, [], 100⟩).1 = .ok () := by decide +kernel
  have hraised : meterContract.raisedSince ⟨.zero, [], 100⟩
      [.call "charge" [5], .settle, .call "waste" [7]] = [.useGas 3, .useGas 5, .useGas 7] := by
    decide +kernel
  have hbefore : meterContract.raisedSince ⟨.zero, [], 100⟩ [.call "charge" [5]] =
      [.useGas 3, .useGas 5] := by decide +kernel
  obtain ⟨hsettle, -, hsame⟩ := settlements_account_for_raised haccepted
    [.call "charge" [5], .settle, .call "waste" [7]] (by rw [hraised]; decide)
  obtain ⟨-, hgas, -⟩ := hsettle 1 rfl
  constructor
  · rw [show [Use.call "charge" [5], .settle, .call "waste" [7]].take 1 =
      [.call "charge" [5]] from rfl, hbefore] at hgas
    exact hgas
  · exact hsame [.call "charge" [5], .call "waste" [7]] rfl

end Contract

end OpcodeConformance
