import OpcodeConformance.Proofs.Contract.Runs

namespace OpcodeConformance

open Wasm

namespace Wasm.Instance

def isOpen (i : Instance HostState) : Bool := i.store.host.isOpen

/-- On a closed queue no use raises anything. -/
theorem use_host_of_closed {i : Instance HostState} (h : i.IsLinked) (hclosed : i.isOpen = false)
    (u : Use) : (i.use u).store.host = i.store.host := by
  -- the instance is compared with itself: on a closed queue the host cannot have moved
  have hself : i.Alike (Interface.Shut i.store.host) i := ⟨rfl, rfl, rfl, rfl, rfl⟩
  exact (hself.use (fun f hf => (h f hf).respects_shut hclosed) u).store.host.1

end Wasm.Instance

namespace Contract

/-- The live instance, if there is one, holds no effects. -/
def IsDrained (c : Contract) : Prop := ∀ i, c.live = some i → i.IsLinked ∧ i.raised = []

def IsClosed (c : Contract) : Prop := ∀ i, c.live = some i → i.isOpen = false

variable {c d : Contract} {m : Message} {f : Fault}

theorem isDrained_new (code : Binary) (t : StateTree) (account : Address) :
    (Contract.new code t account).IsDrained := by
  intro i hi
  cases hi

theorem live_applyAll (es : List Effect) (c : Contract) : (c.applyAll es).2.live = c.live := by
  obtain ⟨gas, response, h⟩ := applyAll_frame es c
  rw [h]

/-- The live instance behind a use is the earlier one behind that use, its effects apart. -/
theorem exists_of_live_use {u : Use} {j : Instance HostState} (h : (c.use u).live = some j) :
    ∃ i, c.live = some i ∧ (j = (i.use u).drained ∨ j = i.use u ∧ ∀ name params,
      u ≠ .call name params) := by
  cases u with
  | call name params =>
    simp only [use, call] at h
    cases hi : c.live with
    | none =>
      rw [hi] at h
      cases hi.symm.trans h
    | some i =>
      rw [hi] at h
      cases h
      exact ⟨i, rfl, .inl rfl⟩
  | write offset bs =>
    simp only [use, write] at h
    cases hi : c.live with
    | none =>
      rw [hi] at h
      cases hi.symm.trans h
    | some i =>
      rw [hi] at h
      cases h
      exact ⟨i, rfl, .inr ⟨rfl, by simp⟩⟩
  | settle =>
    refine ⟨j, ?_, .inr ⟨rfl, by simp⟩⟩
    rw [← h]
    simp only [use, settle]
    split
    · rfl
    · rw [live_applyAll]

theorem IsDrained.use (h : c.IsDrained) (u : Use) : (c.use u).IsDrained := by
  intro j hj
  obtain ⟨i, hi, rfl | ⟨rfl, hu⟩⟩ := exists_of_live_use hj
  · exact ⟨(h i hi).1.use u, rfl⟩
  · refine ⟨(h i hi).1.use u, ?_⟩
    cases u with
    | call name params => exact absurd rfl (hu name params)
    | write offset bs =>
      exact (congrArg HostState.raised (Instance.write_host offset bs i)).trans (h i hi).2
    | settle => exact (h i hi).2

theorem IsDrained.receive (h : c.IsDrained) (m : Message) : (c.receive m).2.IsDrained := by
  intro j hj
  cases hr : (c.receive m).1 with
  | ok v =>
    obtain ⟨i, -, hi, hstate⟩ := receive_ok hr
    rw [hstate] at hj
    cases hj
    exact ⟨hi, rfl⟩
  | error f =>
    obtain ⟨-, hstate⟩ | ⟨i, -, -, -, hstate⟩ := receive_error hr
    · rw [hstate] at hj
      exact h j hj
    · rw [hstate] at hj
      obtain ⟨k, hk, rfl⟩ := Option.map_eq_some_iff.mp hj
      exact h k hk

theorem IsDrained.moved (h : c.IsDrained) (xs : List Move) : (c.moved xs).IsDrained := by
  induction xs generalizing c with
  | nil => exact h
  | cons x xs ih =>
    cases x with
    | receive m => exact ih (h.receive m)
    | use u => exact ih (h.use u)

theorem IsClosed.use (h : c.IsClosed) (hd : c.IsDrained) (u : Use) : (c.use u).IsClosed := by
  intro j hj
  obtain ⟨i, hi, hju⟩ := exists_of_live_use hj
  have hhost : (i.use u).isOpen = false :=
    (congrArg HostState.isOpen (Instance.use_host_of_closed (hd i hi).1 (h i hi) u)).trans (h i hi)
  obtain rfl | ⟨rfl, -⟩ := hju
  · exact hhost
  · exact hhost

theorem IsClosed.used (h : c.IsClosed) (hd : c.IsDrained) (us : List Use) :
    (c.used us).IsClosed ∧ (c.used us).IsDrained := by
  induction us generalizing c with
  | nil => exact ⟨h, hd⟩
  | cons u us ih => exact ih (h.use hd u) (hd.use u)

/-- No call of a closed instance puts anything behind the effects that wait. -/
theorem queue_call_of_closed (h : c.IsClosed) (hd : c.IsDrained) (name : String)
    (params : List Int64) : (c.call name params).2.queue = c.queue := by
  unfold call
  cases hi : c.live with
  | none => rfl
  | some i =>
    have hnone : (Call.run name params i).2.raised = [] :=
      (congrArg HostState.raised (Instance.use_host_of_closed (hd i hi).1 (h i hi)
        (.call name params))).trans (hd i hi).2
    change c.queue.map (· ++ (Call.run name params i).2.raised) = c.queue
    rw [hnone]
    simp

theorem close_eq_iff {i : Instance HostState} : close i = i ↔ i.isOpen = false := by
  constructor
  · intro h
    rw [← h]
    rfl
  · intro h
    obtain ⟨p, memories, globals, environment, raised, isOpen⟩ := i
    change isOpen = false at h
    subst h
    rfl

/-- When replacing instance, gas, response and waiting effects goes unnoticed. -/
theorem replaced_eq_iff {queue : Option (List Effect)} {gas : UInt64} :
    { c with live := c.live.map close, queue := queue, gasLeft := gas, response := .none } = c ↔
      c.IsClosed ∧ c.gasLeft = gas ∧ c.response = .none ∧ c.queue = queue := by
  constructor
  · intro h
    refine ⟨fun i hi => ?_, (congrArg Contract.gasLeft h).symm, (congrArg Contract.response h).symm,
      (congrArg Contract.queue h).symm⟩
    have hlive : c.live.map close = c.live := congrArg Contract.live h
    rw [hi] at hlive
    exact close_eq_iff.mp (Option.some.inj hlive)
  · rintro ⟨hclosed, rfl, hresponse, rfl⟩
    have hlive : c.live.map close = c.live := by
      cases hi : c.live with
      | none => rfl
      | some i => exact congrArg some (close_eq_iff.mpr (hclosed i hi))
    rw [hlive, ← hresponse]

theorem isClosed_map_close (h : c.live.map close = d.live) : d.IsClosed := by
  intro j hj
  rw [← h] at hj
  obtain ⟨i, -, rfl⟩ := Option.map_eq_some_iff.mp hj
  rfl

/-- A refused message leaves the contract as it was if there is no instance for it. If its entry
function fails, gas and response are those of the message, the effects of the failed function wait,
and whatever is then done with the earlier instance, nothing that it raises is applied. -/
theorem refused_message_keeps_contract (code : Binary) (t : StateTree) (account : Address)
    (xs : List Move) (m : Message) (f : Fault)
    (h : (((Contract.new code t account).moved xs).receive m).1 = .error f) :
    let c := (Contract.new code t account).moved xs
    let refused := (c.receive m).2
    (refused = c ↔ c.instantiate m = .error f ∨ c.IsClosed ∧ c.gasLeft = m.gas ∧
      c.response = .none ∧ ∃ i, c.instantiate m = .ok i ∧
        c.queue = some (Call.run entryName [] i).2.raised) ∧
      (c.instantiate m = .error f ∨ ∃ i, c.instantiate m = .ok i ∧
        i.hasFunction entryName = true ∧ (Call.run entryName [] i).1 = .error f ∧
        refused = { c with
          live := c.live.map close
          queue := some (Call.run entryName [] i).2.raised
          gasLeft := m.gas
          response := .none } ∧
        ∀ us name params,
          ((refused.used us).call name params).2.queue = (refused.used us).queue) := by
  intro c refused
  have hdrained : refused.IsDrained := ((isDrained_new code t account).moved xs).receive m
  obtain ⟨hi, hkept⟩ | ⟨i, hi, hentry, hrun, hkept⟩ := receive_error h
  · exact ⟨⟨fun _ => .inl hi, fun _ => hkept⟩, .inl hi⟩
  -- the entry function has failed, and the earlier instance stays with its queue closed
  · have hlive : c.live.map close = refused.live := (congrArg Contract.live hkept).symm
    have hclosed := isClosed_map_close hlive
    refine ⟨⟨fun hsame => .inr ?_, ?_⟩, .inr ⟨i, hi, hentry, hrun, hkept, ?_⟩⟩
    · obtain ⟨hclosed, hgas, hresponse, hqueue⟩ := replaced_eq_iff.mp (hkept.symm.trans hsame)
      exact ⟨hclosed, hgas, hresponse, i, hi, hqueue⟩
    · rintro (hnone | ⟨hclosed, hgas, hresponse, j, hj, hqueue⟩)
      · cases hi.symm.trans hnone
      · cases hi.symm.trans hj
        exact hkept.trans (replaced_eq_iff.mpr ⟨hclosed, hgas, hresponse, hqueue⟩)
    · intro us name params
      have hus := hclosed.used hdrained us
      exact queue_call_of_closed hus.1 hus.2 name params

/-- The meter refuses a message with data, which is reason enough to charge for that message. -/
theorem refused_message_keeps_contract_meter :
    let c := meterContract.moved [.receive ⟨.zero, [], 100⟩]
    let refused := (c.receive ⟨.zero, [1], 50⟩).2
    (c.receive ⟨.zero, [1], 50⟩).1 = .error (.trap (Trap.message .unreachable)) ∧ refused ≠ c ∧
      ∀ us name params,
        ((refused.used us).call name params).2.queue = (refused.used us).queue := by
  intro c refused
  have hfails : (c.receive ⟨.zero, [1], 50⟩).1 = .error (.trap (Trap.message .unreachable)) := by
    decide +kernel
  have hmade : (c.instantiate ⟨.zero, [1], 50⟩).isOk = true := by decide +kernel
  have hgas : c.gasLeft ≠ 50 := by decide +kernel
  obtain ⟨hsame, hnone | ⟨i, -, -, -, -, hqueue⟩⟩ := refused_message_keeps_contract
    (.compiled meter) meterState .zero [.receive ⟨.zero, [], 100⟩] ⟨.zero, [1], 50⟩ _ hfails
  · rw [show c.instantiate ⟨.zero, [1], 50⟩ = _ from hnone] at hmade
    cases hmade
  · refine ⟨hfails, fun h => ?_, hqueue⟩
    obtain hnone | ⟨-, hleft, -⟩ := hsame.mp h
    · rw [show c.instantiate ⟨.zero, [1], 50⟩ = _ from hnone] at hmade
      cases hmade
    · exact hgas hleft

/-- An earlier instance of the meter cannot charge anymore once a message is refused. -/
theorem refused_message_changes_meter :
    (¬∀ (code : Binary) (t : StateTree) (account : Address) (xs : List Move) (m : Message)
      (f : Fault), (((Contract.new code t account).moved xs).receive m).1 = .error f →
      (((Contract.new code t account).moved xs).receive m).2 =
        (Contract.new code t account).moved xs) ∧
      (((meterContract.moved [.receive ⟨.zero, [], 100⟩]).receive ⟨.zero, [1], 50⟩).2.call "charge"
        [5]).1 = .error (.trap "effect queue closed: UseGas(5)") := by
  constructor
  · intro h
    have hsame := h (.compiled meter) meterState .zero [.receive ⟨.zero, [], 100⟩]
      ⟨.zero, [1], 50⟩ (.trap (Trap.message .unreachable)) (by decide +kernel)
    have hgas := congrArg Contract.gasLeft hsame
    revert hgas
    decide +kernel
  · decide +kernel

end Contract

end OpcodeConformance
