import OpcodeConformance.Proofs.Dispatch
import OpcodeConformance.Proofs.Expectation
import OpcodeConformance.Suite

namespace OpcodeConformance

theorem HarnessError.message_ofFault (f : Fault) :
    (HarnessError.ofFault f).message = "WASM exception: " ++ f.message := rfl

namespace Suite.Runner

variable {κ ω : Type}

/-- A case that cannot be prepared: there is no code for its opcode or no context for its
environment, or one of the texts of its input is not a word. -/
def Unprepared (r : Runner κ ω) (c : Case) : Prop :=
  (∃ e, Synthesis.code r.compiler r.toolchain c.op = .error e) ∨
    (∃ e, Context.build r.settings.gas c.environment = .error e) ∨
    ∃ w ∈ PreparedInput.texts c.input, ∃ e, Word.ofHex w Word.size = .error e

/-- What is asked of the machine for a prepared case: the requests of the run, and the instance
once more. -/
def requests (r : Runner κ ω) (c : Case) (code : κ) (context : Context) (i : PreparedInput) :
    List (Request κ) :=
  Dispatch.requests r.settings.memoryBase code context i c.op c.params ++ [.attach]

/-- A case that can be prepared, but for which the machine refuses a request. -/
def Interrupted (r : Runner κ ω) (c : Case) (s : ω) : Prop :=
  ∃ code context i k f, r.prepare c = .ok (code, context, i) ∧
    r.machine.FirstFailure (r.requests c code context i) s k f

/-- What is observed behind a run in which no request is refused. Gas that is left over and above
the budget counts as none used. -/
structure Observes (r : Runner κ ω) (c : Case) (code : κ) (context : Context) (i : PreparedInput)
    (s : ω) (o : Observation) : Prop where
  stackPointer : r.machine.answer (Dispatch.preparation r.settings.memoryBase code context i)
    (.call c.op c.params) s = .ok o.stackPointer
  returned : o.returned = r.machine.returnValue (r.machine.after
    (Dispatch.requests r.settings.memoryBase code context i c.op c.params) s)
  gasUsed : o.gasUsed.toNat = context.message.gas.toNat - (r.machine.gasLeft (r.machine.after
    (Dispatch.requests r.settings.memoryBase code context i c.op c.params) s)).toNat

variable {r : Runner κ ω} {file : String} {c : Case} {code : κ} {context : Context}
  {i : PreparedInput} {s : ω}

theorem prepare_eq_ok_iff : r.prepare c = .ok (code, context, i) ↔
    Synthesis.code r.compiler r.toolchain c.op = .ok code ∧
      Context.build r.settings.gas c.environment = .ok context ∧
      PreparedInput.ofInput c.input = .ok i := by
  constructor
  · intro h
    obtain ⟨code, hcode, h⟩ := Results.bind_eq_ok h
    obtain ⟨context, hcontext, h⟩ := Results.bind_eq_ok h
    obtain ⟨i, hi, h⟩ := Results.bind_eq_ok h
    cases h
    exact ⟨Results.mapError_eq_ok hcode, hcontext, hi⟩
  · rintro ⟨hcode, hcontext, hi⟩
    simp only [prepare, hcode, hcontext, hi, Except.mapError, bind, Except.bind]
    rfl

theorem exists_prepare_iff : (∃ p, r.prepare c = .ok p) ↔ ¬r.Unprepared c := by
  have hprepared : (∃ p, r.prepare c = .ok p) ↔
      (∃ code, Synthesis.code r.compiler r.toolchain c.op = .ok code) ∧
        (∃ context, Context.build r.settings.gas c.environment = .ok context) ∧
        ∃ i, PreparedInput.ofInput c.input = .ok i := by
    constructor
    · rintro ⟨⟨code, context, i⟩, h⟩
      obtain ⟨hcode, hcontext, hi⟩ := prepare_eq_ok_iff.mp h
      exact ⟨⟨code, hcode⟩, ⟨context, hcontext⟩, i, hi⟩
    · rintro ⟨⟨code, hcode⟩, ⟨context, hcontext⟩, i, hi⟩
      exact ⟨(code, context, i), prepare_eq_ok_iff.mpr ⟨hcode, hcontext, hi⟩⟩
  have hwords : (∀ w ∈ PreparedInput.texts c.input, Word.IsSpelled w) ↔
      ¬∃ w ∈ PreparedInput.texts c.input, ∃ e, Word.ofHex w Word.size = .error e := by
    simp only [Word.IsSpelled, Results.exists_ok_iff, not_exists, not_and]
  rw [hprepared, PreparedInput.exists_ofInput_iff, hwords, Results.exists_ok_iff,
    Results.exists_ok_iff, Unprepared, not_or, not_or]

theorem unprepared_iff : r.Unprepared c ↔ ∃ e, r.prepare c = .error e := by
  rw [← not_iff_not, ← exists_prepare_iff, Results.exists_ok_iff]

theorem read_not_mem_requests (offset len : Nat) :
    .read offset len ∉ r.requests c code context i := by
  simp [requests, Dispatch.requests, Dispatch.preparation, Dispatch.stackRequests,
    Dispatch.memoryRequests]

theorem runCase_of_error {e : HarnessError} (h : r.prepare c = .error e) :
    r.runCase file c s = ([⟨file, c.label, .setup, e.message⟩], s) := by
  simp only [runCase, h]
  rfl

theorem runCase_of_observe {o : Observation} {t : ω}
    (hprepare : r.prepare c = .ok (code, context, i))
    (hobserve : r.observe c code context i s = (.ok o, t)) :
    r.runCase file c s = Verdict.check r.machine r.settings.memoryBase file c o t := by
  simp only [runCase, hprepare, hobserve]

theorem toNat_used (budget left : UInt64) :
    (if left ≤ budget then budget - left else 0).toNat = budget.toNat - left.toNat := by
  split
  · rename_i h
    exact UInt64.toNat_sub_of_le _ _ h
  · rename_i h
    rw [UInt64.not_le, UInt64.lt_iff_toNat_lt] at h
    exact (Nat.sub_eq_zero_of_le (Nat.le_of_lt h)).symm

/-- Behind the run the instance is asked for once more, and everything else was looked at before. -/
theorem observe_of_run {value : Option Int64} {t : ω}
    (h : Dispatch.execute r.machine r.settings.memoryBase code context i c.op c.params s =
      (.ok value, t)) :
    r.observe c code context i s =
      let used := if r.machine.gasLeft t ≤ context.message.gas
        then context.message.gas - r.machine.gasLeft t else 0
      (((r.machine.perform .attach t).1.map fun _ =>
          ⟨value, r.machine.returnValue t, used⟩).mapError HarnessError.ofFault,
        (r.machine.perform .attach t).2) := by
  have hget : (get : Action HarnessError ω ω) t = (.ok t, t) := rfl
  unfold observe
  rw [Action.bind_of_ok h, Action.bind_of_ok hget, Action.bind_apply, Action.mapError,
    Machine.perform, Action.withoutValue]
  rcases r.machine.attach t with ⟨_ | _, u⟩ <;> rfl

/-- The first request that is refused ends the run of a case. -/
theorem observe_of_firstFailure {k : Nat} {f : Fault}
    (h : r.machine.FirstFailure (r.requests c code context i) s k f) :
    r.observe c code context i s =
      (.error (.ofFault f), r.machine.after ((r.requests c code context i).take (k + 1)) s) := by
  rcases Machine.firstFailure_append.mp h with hrun | ⟨hrun, j, rfl, hattach⟩
  · unfold observe
    rw [Action.bind_apply, Dispatch.execute_of_firstFailure hrun, requests,
      List.take_append_of_le_length hrun.lt_length]
  -- the run has ended, and the instance is not given away once more
  · obtain ⟨a, -, hexecute⟩ := Dispatch.execute_of_accepts hrun
    obtain rfl : j = 0 := by simpa using hattach.lt_length
    rw [observe_of_run hexecute, Machine.firstFailure_zero.mp hattach, requests,
      List.take_of_length_le (by simp), Machine.after_append]
    rfl

/-- A case for which no request is refused is observed. -/
theorem observe_of_accepts (h : r.machine.Accepts (r.requests c code context i) s) :
    ∃ o, r.Observes c code context i s o ∧ r.observe c code context i s =
      (.ok o, r.machine.after (r.requests c code context i) s) := by
  obtain ⟨hrun, hattach⟩ := Machine.accepts_append.mp h
  obtain ⟨a, ha, hexecute⟩ := Dispatch.execute_of_accepts hrun
  obtain ⟨v, hv⟩ := Results.isOk_iff.mp (Machine.accepts_cons.mp hattach).1
  rw [observe_of_run hexecute, hv, requests, Machine.after_append]
  exact ⟨_, ⟨ha, rfl, toNat_used _ _⟩, rfl⟩

theorem runCase_of_firstFailure (file : String) {k : Nat} {f : Fault}
    (hprepare : r.prepare c = .ok (code, context, i))
    (h : r.machine.FirstFailure (r.requests c code context i) s k f) :
    r.runCase file c s = ([⟨file, c.label, .execution, "WASM exception: " ++ f.message⟩],
      r.machine.after ((r.requests c code context i).take (k + 1)) s) := by
  simp only [runCase, hprepare, observe_of_firstFailure h]
  rw [HarnessError.message_ofFault]
  rfl

theorem interrupted_iff (hprepare : r.prepare c = .ok (code, context, i)) :
    r.Interrupted c s ↔ ¬r.machine.Accepts (r.requests c code context i) s := by
  constructor
  · rintro ⟨_, _, _, k, f, hprepared, hf⟩
    cases hprepare.symm.trans hprepared
    exact hf.not_accepts
  · intro h
    obtain ⟨k, f, hf⟩ := (r.machine.accepts_or_firstFailure _ s).resolve_left h
    exact ⟨code, context, i, k, f, hprepare, hf⟩

theorem runCase_of_not_interrupted (file : String)
    (hprepare : r.prepare c = .ok (code, context, i))
    (h : ¬r.Interrupted c s) : ∃ o, r.Observes c code context i s o ∧
      r.runCase file c s = Verdict.check r.machine r.settings.memoryBase file c o
        (r.machine.after (r.requests c code context i) s) := by
  have haccepts := not_not.mp ((interrupted_iff hprepare).not.mp h)
  obtain ⟨o, ho, hobserve⟩ := observe_of_accepts haccepts
  exact ⟨o, ho, runCase_of_observe hprepare hobserve⟩

/-- Of every case exactly one thing is reported. If it cannot be prepared, that is one failure of
the setup, and the machine is left alone. If a request is refused, it is one failure of the
execution, which tells the fault; no further request is made, no read was among those before, and
what the case expects makes no difference. Else it is what the verdict says, which is never about
the setup or the execution. Every failure names the file and the case. -/
theorem runCase_report (r : Runner κ ω) (file : String) (c : Case) (s : ω) :
    let run := r.runCase file c s
    ((∃ message, run.1 = [⟨file, c.label, .setup, message⟩]) ↔ r.Unprepared c) ∧
    (r.Unprepared c → run.2 = s) ∧
    ((∃ message, run.1 = [⟨file, c.label, .execution, message⟩]) ↔ r.Interrupted c s) ∧
    (∀ code context i k f, r.prepare c = .ok (code, context, i) →
      r.machine.FirstFailure (r.requests c code context i) s k f →
        (∀ offset len, .read offset len ∉ r.requests c code context i) ∧
        ∀ output : CaseOutput, r.runCase file { c with output := output } s =
          ([⟨file, c.label, .execution, "WASM exception: " ++ f.message⟩],
            r.machine.after ((r.requests c code context i).take (k + 1)) s)) ∧
    (¬r.Unprepared c → ¬r.Interrupted c s → ∃ code context i o,
      r.prepare c = .ok (code, context, i) ∧ r.Observes c code context i s o ∧
      run = Verdict.check r.machine r.settings.memoryBase file c o
        (r.machine.after (r.requests c code context i) s) ∧
      ∀ f ∈ run.1, f.field ≠ .setup ∧ f.field ≠ .execution) ∧
    ∀ f ∈ run.1, f.file = file ∧ f.label = c.label := by
  intro run
  have hinterrupted : ∀ code context i k f, r.prepare c = .ok (code, context, i) →
      r.machine.FirstFailure (r.requests c code context i) s k f →
        (∀ offset len, .read offset len ∉ r.requests c code context i) ∧
        ∀ output : CaseOutput, r.runCase file { c with output := output } s =
          ([⟨file, c.label, .execution, "WASM exception: " ++ f.message⟩],
            r.machine.after ((r.requests c code context i).take (k + 1)) s) :=
    fun code context i k f hprepare hf =>
      ⟨read_not_mem_requests, fun output =>
        runCase_of_firstFailure (c := { c with output := output }) file hprepare hf⟩
  by_cases hu : r.Unprepared c
  case pos =>
    obtain ⟨e, he⟩ := unprepared_iff.mp hu
    have hrun : run = ([⟨file, c.label, .setup, e.message⟩], s) := runCase_of_error he
    have hi : ¬r.Interrupted c s := by
      rintro ⟨code, context, i, k, f, hprepare, -⟩
      cases he.symm.trans hprepare
    refine ⟨iff_of_true ⟨e.message, by rw [hrun]⟩ hu, fun _ => by rw [hrun],
      iff_of_false ?_ hi, hinterrupted, fun h => absurd hu h, ?_⟩
    · rintro ⟨message, h⟩
      simp [hrun] at h
    · simp [hrun]
  obtain ⟨⟨code, context, i⟩, hprepare⟩ := exists_prepare_iff.mpr hu
  by_cases hi : r.Interrupted c s
  case pos =>
    obtain ⟨_, _, _, k, f, hprepared, hf⟩ := id hi
    have hrun := runCase_of_firstFailure file hprepared hf
    refine ⟨iff_of_false ?_ hu, fun h => absurd h hu, iff_of_true ⟨_, congrArg Prod.fst hrun⟩ hi,
      hinterrupted, fun _ h => absurd hi h, ?_⟩
    · rintro ⟨message, h⟩
      simp [run, hrun] at h
    · simp [run, hrun]
  case neg =>
    obtain ⟨o, ho, hrun⟩ := runCase_of_not_interrupted file hprepare hi
    have hfields : ∀ f ∈ run.1, f.field ≠ .setup ∧ f.field ≠ .execution := by
      intro f hf
      rw [show run = _ from hrun] at hf
      exact Verdict.field_of_mem_check hf
    refine ⟨iff_of_false ?_ hu, fun h => absurd h hu, iff_of_false ?_ hi, hinterrupted,
      fun _ _ => ⟨code, context, i, o, hprepare, ho, hrun, hfields⟩, ?_⟩
    · rintro ⟨message, h⟩
      exact (hfields _ (h ▸ List.mem_singleton_self _)).1 rfl
    · rintro ⟨message, h⟩
      exact (hfields _ (h ▸ List.mem_singleton_self _)).2 rfl
    · intro f hf
      rw [show run = _ from hrun, Verdict.check_eq] at hf
      obtain ⟨p, -, rfl⟩ := List.mem_map.mp hf
      exact ⟨rfl, rfl⟩

end Suite.Runner

end OpcodeConformance
