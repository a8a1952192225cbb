import OpcodeConformance.Contract
import OpcodeConformance.Proofs.Contract.Interface
import OpcodeConformance.Proofs.Results

namespace OpcodeConformance

open Wasm

inductive Use where
  | call (name : String) (params : List Int64)
  | write (offset : Nat) (bs : Bytes)
  | settle
  deriving DecidableEq, Repr

/-- What can be done with a contract. -/
inductive Move where
  | receive (m : Message)
  | use (u : Use)
  deriving DecidableEq, Repr

namespace Contract

/-- The contract behind a use, whether it has failed or not. -/
def use (u : Use) (c : Contract) : Contract :=
  match u with
  | .call name params => (c.call name params).2
  | .write offset bs => (c.write offset bs).2
  | .settle => c.settle.2

def used (c : Contract) (us : List Use) : Contract := us.foldl (fun c u => c.use u) c

def move (x : Move) (c : Contract) : Contract :=
  match x with
  | .receive m => (c.receive m).2
  | .use u => c.use u

def moved (c : Contract) (xs : List Move) : Contract := xs.foldl (fun c x => c.move x) c

@[simp] theorem used_nil (c : Contract) : c.used [] = c := rfl

@[simp] theorem used_cons (c : Contract) (u : Use) (us : List Use) :
    c.used (u :: us) = (c.use u).used us := rfl

theorem used_append (c : Contract) (us vs : List Use) :
    c.used (us ++ vs) = (c.used us).used vs := List.foldl_append

theorem apply_frame (e : Effect) (c : Contract) :
    ∃ gas response, (c.apply e).2 = { c with gasLeft := gas, response := response } := by
  cases e with
  | useGas amount =>
    simp only [apply]
    split
    · exact ⟨0, c.response, rfl⟩
    · exact ⟨c.gasLeft - amount, c.response, rfl⟩
  | finish payload => exact ⟨c.gasLeft, ⟨some payload, false⟩, rfl⟩
  | revert payload => exact ⟨c.gasLeft, ⟨some payload, true⟩, rfl⟩

theorem applyAll_frame (es : List Effect) (c : Contract) :
    ∃ gas response, (c.applyAll es).2 = { c with gasLeft := gas, response := response } := by
  induction es generalizing c with
  | nil => exact ⟨c.gasLeft, c.response, rfl⟩
  | cons e es ih =>
    obtain ⟨gas, response, he⟩ := apply_frame e c
    unfold applyAll
    split
    · rename_i d hd
      rw [hd] at he
      obtain rfl : d = _ := he
      exact ih _
    · rename_i f d hd
      rw [hd] at he
      exact ⟨gas, response, he⟩

/-- The instance for a message behind its entry function, with all that it has raised. -/
def dispatch (c : Contract) (m : Message) : Except Fault (Instance HostState) := do
  let i ← c.instantiate m
  if i.hasFunction entryName then
    match Call.run entryName [] i with
    | (.ok _, i) => return i
    | (.error f, _) => throw f
  else return i

end Contract

namespace Wasm.Instance

/-- The instance behind a use. Its effects stay in it. -/
def use (u : Use) (i : Instance HostState) : Instance HostState :=
  match u with
  | .call name params => (Call.run name params i).2
  | .write offset bs => (Call.write offset bs i).2
  | .settle => i

def used (i : Instance HostState) (us : List Use) : Instance HostState :=
  us.foldl (fun i u => i.use u) i

def raised (i : Instance HostState) : List Effect := i.store.host.raised

@[simp] theorem used_nil (i : Instance HostState) : i.used [] = i := rfl

@[simp] theorem used_cons (i : Instance HostState) (u : Use) (us : List Use) :
    i.used (u :: us) = (i.use u).used us := rfl

structure Alike (R : HostState → HostState → Prop) (i j : Instance HostState) : Prop where
  program : i.program = j.program
  store : i.store.Alike R j.store

/-- The program has functions of the interface only from outside. -/
def IsLinked (i : Instance HostState) : Prop := ∀ h ∈ i.program.imports, Interface.Reacts h

variable {R : HostState → HostState → Prop} {i j : Instance HostState}

theorem Alike.run (h : i.Alike R j) (hi : ∀ h ∈ i.program.imports, h.Respects R)
    (name : String) (params : List Int64) :
    (Call.run name params i).1 = (Call.run name params j).1 ∧
      (Call.run name params i).2.Alike R (Call.run name params j).2 := by
  obtain ⟨p, s⟩ := i
  obtain ⟨p', t⟩ := j
  obtain ⟨hp, hs⟩ := h
  dsimp only at hp hs hi
  subst hp
  unfold Call.run
  -- what is called depends on the program only
  rw [show Call.target (⟨p, t⟩ : Instance HostState) name params =
    Call.target ⟨p, s⟩ name params from rfl]
  cases Call.target (⟨p, s⟩ : Instance HostState) name params with
  | error f => exact ⟨rfl, rfl, hs⟩
  | ok target =>
    obtain ⟨n, args⟩ := target
    obtain ⟨results, s', t', hs', ht', h'⟩ | ⟨trap, s', t', hs', ht', h'⟩ :=
      (enter_alike p hi n args s t hs).cases
    · simp only [hs', ht', true_and]
      exact ⟨rfl, h'⟩
    · simp only [hs', ht', true_and]
      exact ⟨rfl, h'⟩

theorem Alike.write (h : i.Alike R j) (offset : Nat) (bs : Bytes) :
    (Call.write offset bs i).1 = (Call.write offset bs j).1 ∧
      (Call.write offset bs i).2.Alike R (Call.write offset bs j).2 := by
  obtain ⟨p, s⟩ := i
  obtain ⟨p', t⟩ := j
  obtain ⟨hp, hs⟩ := h
  dsimp only at hp hs
  subst hp
  have hm : Instance.memory ⟨p, s⟩ = Instance.memory ⟨p, t⟩ := by
    simp only [Instance.memory, Program.view, hs.memories]
  simp only [Call.write, Instance.write?, hm]
  cases (Instance.memory ⟨p, t⟩).write? offset bs with
  | none => exact ⟨rfl, rfl, hs⟩
  | some m => exact ⟨rfl, rfl, hs.update p rfl hs.host⟩

theorem Alike.use (h : i.Alike R j) (hi : ∀ h ∈ i.program.imports, h.Respects R) (u : Use) :
    (i.use u).Alike R (j.use u) := by
  cases u with
  | call name params => exact (h.run hi name params).2
  | write offset bs => exact (h.write offset bs).2
  | settle => exact h

theorem run_program (name : String) (params : List Int64) (i : Instance HostState) :
    (Call.run name params i).2.program = i.program := by
  unfold Call.run
  split
  · rfl
  · split <;> rfl

theorem write_program (offset : Nat) (bs : Bytes) (i : Instance HostState) :
    (Call.write offset bs i).2.program = i.program := by
  unfold Call.write Instance.write?
  cases i.memory.write? offset bs <;> rfl

theorem write_host (offset : Nat) (bs : Bytes) (i : Instance HostState) :
    (Call.write offset bs i).2.store.host = i.store.host := by
  unfold Call.write Instance.write?
  cases i.memory.write? offset bs with
  | none => rfl
  | some m =>
    simp only [Option.map_some, Program.update]
    split <;> rfl

theorem use_program (u : Use) (i : Instance HostState) : (i.use u).program = i.program := by
  cases u with
  | call name params => exact run_program name params i
  | write offset bs => exact write_program offset bs i
  | settle => rfl

theorem IsLinked.use {i : Instance HostState} (h : i.IsLinked) (u : Use) : (i.use u).IsLinked := by
  unfold IsLinked
  rw [use_program]
  exact h

theorem IsLinked.used {i : Instance HostState} (h : i.IsLinked) (us : List Use) :
    (i.used us).IsLinked := by
  induction us generalizing i with
  | nil => exact h
  | cons u us ih => exact ih (h.use u)

theorem isLinked_start {m : Module} {host : HostState} {i : Instance HostState}
    (h : start Interface.host m host = .ok i) : i.IsLinked := by
  unfold start at h
  obtain ⟨imports, himports, h⟩ := Results.bind_eq_ok h
  obtain ⟨s, -, h⟩ := Results.bind_eq_ok h
  obtain ⟨s', -, h⟩ := Results.bind_eq_ok h
  cases h
  intro f hf
  obtain ⟨x, -, hx⟩ := Results.exists_of_mem_mapM himports hf
  unfold resolve at hx
  split at hx
  · cases hx
  · rename_i g hg
    split at hx
    · cases hx
      exact Interface.host_reacts hg
    · cases hx

def drained (i : Instance HostState) : Instance HostState := (Contract.drain i).2

theorem drained_of_raised {i : Instance HostState} (h : i.raised = []) : i.drained = i := by
  obtain ⟨p, memories, globals, environment, effects, isOpen⟩ := i
  change effects = [] at h
  subst h
  rfl

theorem drained_alike (i : Instance HostState) :
    i.drained.Alike (Interface.Behind i.raised) i :=
  ⟨rfl, rfl, rfl, by simp [Interface.Behind, drained, Contract.drain, raised]⟩

theorem Alike.drained_eq {log : List Effect} {i j : Instance HostState}
    (h : i.Alike (Interface.Behind log) j) : i.drained = j.drained := by
  obtain ⟨p, memories, globals, host⟩ := i
  obtain ⟨p', memories', globals', host'⟩ := j
  obtain ⟨hp, hm, hg, hh⟩ := h
  dsimp only at hp hm hg hh
  rw [hp, hm, hg, hh]
  rfl

theorem Alike.raised_eq {log : List Effect} {i j : Instance HostState}
    (h : i.Alike (Interface.Behind log) j) : j.raised = log ++ i.raised := by
  rw [raised, h.store.host]
  rfl

/-- Taking the effects from an instance before a use changes nothing else about it, and the use
raises the same effects. -/
theorem use_drained {i : Instance HostState} (h : i.IsLinked) (u : Use) :
    (i.drained.use u).drained = (i.use u).drained ∧
      (i.use u).raised = i.raised ++ (i.drained.use u).raised := by
  -- the drained instance and the instance itself run alike, the second behind the log
  have hu := (drained_alike i).use (fun f hf => (h f hf).respects_behind _) u
  exact ⟨hu.drained_eq, hu.raised_eq⟩

/-- What an instance has raised stays at the front of what it holds. -/
theorem raised_prefix_used {i : Instance HostState} (h : i.IsLinked) (us : List Use) :
    i.raised <+: (i.used us).raised := by
  induction us generalizing i with
  | nil => exact List.prefix_rfl
  | cons u us ih =>
    have hu : i.raised <+: (i.use u).raised := by
      rw [(use_drained h u).2]
      exact List.prefix_append _ _
    exact hu.trans (ih (h.use u))

end Wasm.Instance

namespace Contract

variable {c : Contract} {m : Message} {f : Fault} {i : Instance HostState}

theorem isLinked_instantiate (h : c.instantiate m = .ok i) : i.IsLinked := by
  unfold instantiate at h
  obtain ⟨e, -, h⟩ := Results.bind_eq_ok h
  obtain ⟨module, -, h⟩ := Results.bind_eq_ok h
  obtain ⟨j, hj, h⟩ := Results.bind_eq_ok h
  split at h
  · cases h
    exact Instance.isLinked_start (Results.mapError_eq_ok hj)
  · cases h

/-- The two ways in which a message is refused: there is no instance for it, or the entry function
of the instance fails. -/
theorem receive_error (h : (c.receive m).1 = .error f) :
    (c.instantiate m = .error f ∧ (c.receive m).2 = c) ∨
      ∃ i, c.instantiate m = .ok i ∧ i.hasFunction entryName = true ∧
        (Call.run entryName [] i).1 = .error f ∧
        (c.receive m).2 = { c with
          live := c.live.map close
          queue := some (Call.run entryName [] i).2.raised
          gasLeft := m.gas
          response := .none } := by
  unfold receive at h ⊢
  cases hi : c.instantiate m with
  | error g =>
    simp only [hi] at h
    cases h
    exact .inl ⟨rfl, rfl⟩
  | ok i =>
    refine .inr ⟨i, rfl, ?_⟩
    simp only [hi] at h ⊢
    by_cases hentry : i.hasFunction entryName = true
    · simp only [hentry, if_true] at h ⊢
      cases hrun : (Call.run entryName [] i).1 with
      | ok v =>
        simp only [hrun] at h
        cases h
      | error g =>
        simp only [hrun] at h ⊢
        cases h
        exact ⟨trivial, rfl, rfl⟩
    · simp only [hentry] at h
      cases h

theorem dispatch_of_instantiate (h : c.instantiate m = .ok i) :
    c.dispatch m =
      if i.hasFunction entryName then
        (Call.run entryName [] i).1.map fun _ => (Call.run entryName [] i).2
      else .ok i := by
  unfold dispatch
  rw [h]
  change (if i.hasFunction entryName then _ else _) = _
  split
  · rcases Call.run entryName [] i with ⟨_ | _, j⟩ <;> rfl
  · rfl

/-- An accepted message leaves its instance, and what that has raised waits. -/
theorem receive_ok (h : (c.receive m).1 = .ok ()) :
    ∃ i, c.dispatch m = .ok i ∧ i.IsLinked ∧ (c.receive m).2 = { c with
      live := some i.drained, queue := some i.raised, gasLeft := m.gas, response := .none } := by
  unfold receive at h ⊢
  cases hi : c.instantiate m with
  | error g =>
    simp only [hi] at h
    cases h
  | ok i =>
    have hlinked := isLinked_instantiate hi
    rw [dispatch_of_instantiate hi]
    simp only [hi] at h ⊢
    by_cases hentry : i.hasFunction entryName = true
    · simp only [hentry, if_true] at h ⊢
      cases hrun : (Call.run entryName [] i).1 with
      | error g =>
        simp only [hrun] at h
        cases h
      | ok v => exact ⟨(Call.run entryName [] i).2, rfl, hlinked.use (.call entryName []), rfl⟩
    · simp only [hentry] at h ⊢
      exact ⟨i, rfl, hlinked, rfl⟩

end Contract

/-- Code that charges three for every message and traps if the message has data. The function
`charge` charges its argument, and `waste` traps behind that. -/
def meter : Module where
  imports := [
    ⟨"ethereum", "useGas", .function ⟨[.i64], []⟩⟩,
    ⟨"ethereum", "getCallDataSize", .function ⟨[], [.i32]⟩⟩]
  functions := [
    ⟨⟨[], []⟩, [], .op (.const (.i64 3)) <| .op (.call 0) <| .op (.call 1) <|
      .choice ⟨[], []⟩ (.op .unreachable .done) .done .done⟩,
    ⟨⟨[.i64], []⟩, [], .op (.localGet 0) <| .op (.call 0) .done⟩,
    ⟨⟨[.i64], []⟩, [], .op (.localGet 0) <| .op (.call 0) <| .op .unreachable .done⟩]
  memories := [⟨1, none, false, false⟩]
  globals := []
  exports := [
    ⟨"memory", .memory 0⟩, ⟨"main", .function 2⟩, ⟨"charge", .function 3⟩,
    ⟨"waste", .function 4⟩]
  starts := []
  segments := []

def meterState : StateTree where
  root := .edge accountsPath (.edge Address.zero.toHex .empty .empty) .empty
  ordered := by simp [Node.Ordered, Node.empty, Node.edges]

def meterContract : Contract := .new (.compiled meter) meterState .zero

end OpcodeConformance
