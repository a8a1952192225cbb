import OpcodeConformance.Proofs.Context
import OpcodeConformance.Proofs.Contract.Runs

namespace OpcodeConformance

open Wasm

namespace Interface

def Within (e : Environment) (x y : HostState) : Prop := x = y ∧ x.environment = e

theorem Reacts.respects_within {e : Environment} {h : HostFunction HostState} (hh : Reacts h) :
    h.Respects (Within e) := by
  refine hh.respects (fun x y hxy => by rw [hxy.1]) fun x y effect hxy => ?_
  obtain ⟨rfl, he⟩ := hxy
  unfold TakesAlike raised
  cases x.isOpen with
  | false => exact rfl
  | true => exact ⟨rfl, he⟩

end Interface

namespace Wasm.Instance

def environment (i : Instance HostState) : Environment := i.store.host.environment

theorem run_environment {i : Instance HostState} (h : i.IsLinked) (name : String)
    (params : List Int64) : (Call.run name params i).2.environment = i.environment := by
  have hself : i.Alike (Interface.Within i.environment) i := ⟨rfl, rfl, rfl, rfl, rfl⟩
  exact (hself.run (fun f hf => (h f hf).respects_within) name params).2.store.host.2

theorem host_writeSegment {s t : Store HostState} {d : Segment} (h : writeSegment s d = .ok t) :
    t.host = s.host := by
  unfold writeSegment at h
  split at h
  · split at h
    · rename_i u hu
      cases h
      obtain ⟨m, -, hu⟩ := Option.bind_eq_some_iff.mp hu
      obtain ⟨m', -, hu⟩ := Option.bind_eq_some_iff.mp hu
      cases hu
      rfl
    · cases h
  · cases h

theorem environment_callEach {p : Program HostState} (hp : ∀ h ∈ p.imports, Interface.Reacts h)
    {is : List Nat} {s t : Store HostState} (h : callEach p is s = .ok t) :
    t.host.environment = s.host.environment := by
  induction is generalizing s with
  | nil =>
    cases h
    rfl
  | cons i is ih =>
    have hself : s.Alike (Interface.Within s.host.environment) s := ⟨rfl, rfl, rfl, rfl⟩
    have hcall := callWithin_alike p (fun f hf => (hp f hf).respects_within) greatestDepth
      stackSize i [] s s hself
    rw [callEach, Program.call] at h
    obtain ⟨results, u, u', hu, -, hsame⟩ | ⟨trap, u, u', hu, -, -⟩ := hcall.cases
    · rw [hu] at h
      exact (ih h).trans hsame.host.2
    · rw [hu] at h
      cases h

theorem environment_start {m : Module} {host : HostState} {i : Instance HostState}
    (h : start Interface.host m host = .ok i) : i.environment = host.environment := by
  have hlinked := isLinked_start h
  unfold start at h
  obtain ⟨imports, -, h⟩ := Results.bind_eq_ok h
  obtain ⟨s, hs, h⟩ := Results.bind_eq_ok h
  obtain ⟨t, ht, h⟩ := Results.bind_eq_ok h
  cases h
  have hhost : s.host = host :=
    Results.foldlM_of_step (P := fun s => s.host = host)
      (fun _ _ _ hb hstep => (host_writeSegment hstep).trans hb) rfl hs
  exact (environment_callEach hlinked ht).trans (congrArg HostState.environment hhost)

end Wasm.Instance

namespace Call

variable {η : Type}

theorem argument_ne_state (name : String) (type : ValueType) (x : Int64) (problem : StateError) :
    argument name type x ≠ .error (.state problem) := by
  unfold argument
  split
  · split <;> simp
  · simp
  · simp

theorem arguments_ne_state (name : String) (types : List ValueType) (xs : List Int64)
    (problem : StateError) : arguments name types xs ≠ .error (.state problem) := by
  fun_induction arguments name types xs with
  | case1 t types x xs ih =>
    intro h
    rcases Results.bind_eq_error h with h | ⟨v, -, h⟩
    · exact argument_ne_state name t x problem h
    · rcases Results.bind_eq_error h with h | ⟨vs, -, h⟩
      · exact ih h
      · cases h
  | case2 => simp

theorem target_ne_state (i : Instance η) (name : String) (params : List Int64)
    (problem : StateError) : target i name params ≠ .error (.state problem) := by
  unfold target
  intro h
  split at h
  · split at h
    · split at h
      · cases h
      · rcases Results.bind_eq_error h with h | ⟨args, -, h⟩
        · exact arguments_ne_state name _ params problem h
        · cases h
    · cases h
  · cases h

/-- A call never fails because of the state. -/
theorem run_ne_state (name : String) (params : List Int64) (i : Instance η)
    (problem : StateError) : (run name params i).1 ≠ .error (.state problem) := by
  unfold run
  intro h
  split at h
  · rename_i f hf
    cases h
    exact target_ne_state i name params problem hf
  · split at h <;> cases h

end Call

theorem Binary.load_ne_state (code : Binary) (problem : StateError) :
    code.load ≠ .error (.state problem) := by
  cases code with
  | unmarked content hmark => simp [load]
  | malformed => simp [load]
  | compiled m =>
    rw [load]
    split <;> simp

namespace Contract

variable {c : Contract} {m : Message} {e : Environment} {problem : StateError}

theorem instantiate_of_environment (he : environment c.state c.account m = .ok e) :
    c.instantiate m = (do
      let module ← c.code.load
      let i ← (Instance.start Interface.host module ⟨e, [], true⟩).mapError
        fun e => Fault.instantiation e.message
      if i.program.shown?.isSome then return i
      else throw (.missingExport Program.memoryName)) := by
  unfold instantiate
  rw [he]
  rfl

theorem environment_instantiate {i : Instance HostState}
    (he : environment c.state c.account m = .ok e) (h : c.instantiate m = .ok i) :
    i.environment = e := by
  rw [instantiate_of_environment he] at h
  obtain ⟨module, -, h⟩ := Results.bind_eq_ok h
  obtain ⟨j, hj, h⟩ := Results.bind_eq_ok h
  split at h
  · cases h
    exact Instance.environment_start (Results.mapError_eq_ok hj)
  · cases h

theorem instantiate_ne_state (he : environment c.state c.account m = .ok e) :
    c.instantiate m ≠ .error (.state problem) := by
  rw [instantiate_of_environment he]
  intro h
  rcases Results.bind_eq_error h with h | ⟨module, -, h⟩
  · exact c.code.load_ne_state problem h
  · rcases Results.bind_eq_error h with h | ⟨i, -, h⟩
    · obtain ⟨e', -, h⟩ := Results.mapError_eq_error h
      cases h
    · split at h <;> cases h

/-- If a contract can see the chain, it never refuses a message because of the state. -/
theorem receive_ne_state (he : environment c.state c.account m = .ok e) :
    (c.receive m).1 ≠ .error (.state problem) := by
  intro h
  obtain ⟨hi, -⟩ | ⟨i, -, -, hrun, -⟩ := receive_error h
  · exact instantiate_ne_state he hi
  · exact Call.run_ne_state entryName [] i problem hrun

/-- The instance that an accepted message leaves has run in what the contract sees. -/
theorem environment_receive (he : environment c.state c.account m = .ok e)
    (h : (c.receive m).1 = .ok ()) :
    (c.receive m).2.gasLeft = m.gas ∧
      ∃ i, (c.receive m).2.live = some i ∧ i.environment = e := by
  obtain ⟨i, hi, -, hc⟩ := receive_ok h
  rw [hc]
  refine ⟨rfl, i.drained, rfl, ?_⟩
  change i.environment = e
  unfold dispatch at hi
  obtain ⟨j, hj, hi⟩ := Results.bind_eq_ok hi
  have hstart := environment_instantiate he hj
  have hrun := Instance.run_environment (isLinked_instantiate hj) entryName []
  split at hi
  · split at hi
    · rename_i v k hk
      cases hi
      rw [hk] at hrun
      exact hrun.trans hstart
    · cases hi
  · cases hi
    exact hstart

end Contract

/-- Every environment of a case has a context, whatever it leaves out. A contract made in it never
refuses the message because of the state, and what it sees is the environment: from the start of
its instance to the end of its run. -/
theorem Context.contract_sees_case (gas : UInt64) (e : CaseEnvironment) (code : Binary) :
    ∃ c, build gas e = .ok c ∧
      c.block.header.coinbase = e.coinbase.getD .zero ∧
      let contract := Contract.new code c.state c.account
      let seen : Environment :=
        ⟨e.address.getD .zero, e.caller.getD .zero, e.callData.getD [], c.block.header, some ⟨⟩⟩
      Contract.environment c.state c.account c.message = .ok seen ∧
      (∀ problem, (contract.receive c.message).1 ≠ .error (.state problem)) ∧
      (∀ i, contract.instantiate c.message = .ok i → i.environment = seen) ∧
      ((contract.receive c.message).1 = .ok () →
        (contract.receive c.message).2.gasLeft = gas ∧
          ∃ i, (contract.receive c.message).2.live = some i ∧ i.environment = seen) := by
  obtain ⟨c, hc, hmessage, hseen⟩ := build_eq_ok gas e
  have hblock : c.block = Block.withCoinbase (e.coinbase.getD .zero) := by
    obtain ⟨t, -, h⟩ := Results.bind_eq_ok hc
    cases h
    rfl
  have hvisible : visible e = ⟨e.address.getD .zero, e.caller.getD .zero, e.callData.getD [],
      c.block.header, some ⟨⟩⟩ := by
    rw [hblock, visible]
  rw [hvisible] at hseen
  refine ⟨c, hc, by rw [hblock]; rfl, hseen, fun problem => ?_, fun i => ?_, fun h => ?_⟩
  · exact Contract.receive_ne_state hseen
  · exact Contract.environment_instantiate hseen
  · obtain ⟨hgas, hlive⟩ := Contract.environment_receive hseen h
    exact ⟨hgas.trans (by rw [hmessage]; rfl), hlive⟩

end OpcodeConformance
