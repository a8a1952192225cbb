import OpcodeConformance.Proofs.Contract.Validity
import OpcodeConformance.Proofs.Wasm.Value

namespace OpcodeConformance

open Wasm

namespace Call

variable {η : Type}

/-- A function with a number and a type is exported by a name. -/
def Exports (i : Instance η) (name : String) (n : Nat) (type : FunctionType) : Prop :=
  i.program.module.exportedFunction? name = some n ∧ i.program.functionType? n = some type

/-- The numbers that 32 bits hold with a sign. -/
def IsNarrow (x : Int64) : Prop := -2 ^ 31 ≤ x.toInt ∧ x.toInt < 2 ^ 31

def Takes (t : ValueType) (x : Int64) : Prop := t = .i64 ∨ t = .i32 ∧ IsNarrow x

/-- Why a parameter of the type does not take the number. -/
inductive Unusable (name : String) : ValueType → Int64 → Fault → Prop
  | outOfRange {x} (h : ¬IsNarrow x) : Unusable name .i32 x (.paramOutOfRange name x)
  | unsupported {t x} (h32 : t ≠ .i32) (h64 : t ≠ .i64) :
    Unusable name t x (.unsupportedParam name t.name)

/-- Why a call is refused. The function is looked for first, then the arguments are counted, and then
the leftmost one counts that is not taken. -/
inductive Refused (i : Instance η) (name : String) : List Int64 → Fault → Prop
  | missing {params} (h : ∀ n type, ¬Exports i name n type) :
    Refused i name params (.missingExport name)
  | count {params n type} (h : Exports i name n type)
    (hcount : type.params.length ≠ params.length) :
    Refused i name params (.wrongParamCount name type.params.length params.length)
  | argument {n ts t ts' results xs x xs' f} (h : Exports i name n ⟨ts ++ t :: ts', results⟩)
    (hcount : ts'.length = xs'.length) (hbefore : List.Forall₂ Takes ts xs)
    (hunusable : Unusable name t x f) : Refused i name (xs ++ x :: xs') f

variable {i : Instance η} {name : String} {t : ValueType} {x : Int64} {ts ts' : List ValueType}
  {xs xs' params : List Int64} {f : Fault} {n : Nat} {type : FunctionType}

theorem takes_or_unusable (name : String) (t : ValueType) (x : Int64) :
    Takes t x ∨ ∃ f, Unusable name t x f := by
  cases t with
  | i32 =>
    by_cases hx : IsNarrow x
    · exact .inl (.inr ⟨rfl, hx⟩)
    · exact .inr ⟨_, .outOfRange hx⟩
  | i64 => exact .inl (.inl rfl)
  | f32 | f64 | v128 | funcref | externref => exact .inr ⟨_, .unsupported (by decide) (by decide)⟩

theorem argument_of_takes (name : String) (h : Takes t x) :
    ∃ v, argument name t x = .ok v ∧ v.type = t ∧ v.Denotes x.toInt := by
  obtain rfl | ⟨rfl, hle, hlt⟩ := h
  · exact ⟨_, rfl, rfl, Value.denotes_i64 x⟩
  · have hrange : Int32.minValue.toInt ≤ x.toInt ∧ x.toInt ≤ Int32.maxValue.toInt :=
      ⟨hle, Int.lt_add_one_iff.mp hlt⟩
    exact ⟨_, if_pos hrange, rfl, Value.denotes_i32 hle hlt⟩

theorem argument_of_unusable (h : Unusable name t x f) : argument name t x = .error f := by
  cases h with
  | outOfRange h =>
    have hrange : ¬(Int32.minValue.toInt ≤ x.toInt ∧ x.toInt ≤ Int32.maxValue.toInt) :=
      fun hx => h ⟨hx.1, Int.lt_add_one_iff.mpr hx.2⟩
    exact if_neg hrange
  | unsupported h32 h64 =>
    cases t with
    | i32 => exact absurd rfl h32
    | i64 => exact absurd rfl h64
    | f32 | f64 | v128 | funcref | externref => rfl

/-- Numbers that are taken are handed on as they are. -/
theorem arguments_of_takes (name : String) (h : List.Forall₂ Takes ts xs) :
    ∃ vs, arguments name ts xs = .ok vs ∧ vs.map Value.type = ts ∧
      List.Forall₂ (fun v x => v.Denotes x.toInt) vs xs := by
  induction h with
  | nil => exact ⟨[], rfl, rfl, .nil⟩
  | cons htakes _ ih =>
    obtain ⟨v, hv, htype, hdenotes⟩ := argument_of_takes name htakes
    obtain ⟨vs, hvs, htypes, hall⟩ := ih
    refine ⟨v :: vs, ?_, by rw [List.map_cons, htype, htypes], .cons hdenotes hall⟩
    rw [arguments, hv, hvs]
    rfl

theorem arguments_of_unusable (hbefore : List.Forall₂ Takes ts xs) (h : Unusable name t x f) :
    arguments name (ts ++ t :: ts') (xs ++ x :: xs') = .error f := by
  induction hbefore with
  | nil =>
    rw [List.nil_append, List.nil_append, arguments, argument_of_unusable h]
    rfl
  | cons htakes _ ih =>
    obtain ⟨v, hv, -⟩ := argument_of_takes name htakes
    rw [List.cons_append, List.cons_append, arguments, hv, ih]
    rfl

/-- As many numbers as parameters are all taken, or one is the leftmost that is not. -/
theorem takes_or_leftmost (name : String) (h : ts.length = xs.length) :
    List.Forall₂ Takes ts xs ∨ ∃ ts₁ t ts₂ xs₁ x xs₂ f, ts = ts₁ ++ t :: ts₂ ∧
      xs = xs₁ ++ x :: xs₂ ∧ ts₂.length = xs₂.length ∧ List.Forall₂ Takes ts₁ xs₁ ∧
      Unusable name t x f := by
  induction ts generalizing xs with
  | nil =>
    obtain rfl := List.length_eq_zero_iff.mp h.symm
    exact .inl .nil
  | cons t ts ih =>
    cases xs with
    | nil => cases h
    | cons x xs =>
      have hlength : ts.length = xs.length := Nat.succ.inj h
      obtain htakes | ⟨f, hf⟩ := takes_or_unusable name t x
      · obtain hall | ⟨ts₁, t', ts₂, xs₁, x', xs₂, f, rfl, rfl, hcount, hbefore, hf⟩ := ih hlength
        · exact .inl (.cons htakes hall)
        · exact .inr ⟨t :: ts₁, t', ts₂, x :: xs₁, x', xs₂, f, rfl, rfl, hcount,
            .cons htakes hbefore, hf⟩
      · exact .inr ⟨[], t, ts, [], x, xs, f, rfl, rfl, hlength, .nil, hf⟩

theorem target_of_exports (h : Exports i name n type) :
    target i name params =
      if type.params.length ≠ params.length then
        .error (.wrongParamCount name type.params.length params.length)
      else (arguments name type.params params).map (n, ·) := by
  obtain ⟨hn, htype⟩ := h
  simp only [target, hn, htype]
  split
  · rfl
  · cases arguments name type.params params <;> rfl

theorem target_of_refused (h : Refused i name params f) : target i name params = .error f := by
  cases h with
  | missing h =>
    unfold target
    cases hn : i.program.module.exportedFunction? name with
    | none => rfl
    | some n =>
      cases htype : i.program.functionType? n with
      | none => simp [htype, throw, throwThe, MonadExceptOf.throw]
      | some type => exact absurd ⟨hn, htype⟩ (h n type)
  | count h hcount => rw [target_of_exports h, if_pos hcount]
  | @argument n ts t ts' results xs x xs' f h hcount hbefore hunusable =>
    have hlength : (ts ++ t :: ts').length = (xs ++ x :: xs').length := by
      simp only [List.length_append, List.length_cons, hbefore.length_eq, hcount]
    rw [target_of_exports h, if_neg (not_not.mpr hlength), arguments_of_unusable hbefore hunusable]
    rfl

theorem not_refused_of_target {entry : Nat × List Value} (h : target i name params = .ok entry)
    (f : Fault) : ¬Refused i name params f := by
  intro hf
  rw [target_of_refused hf] at h
  cases h

/-- A call that is not refused enters its function with the numbers that it is given. -/
theorem exists_target (h : ∀ f, ¬Refused i name params f) :
    ∃ n type args, Exports i name n type ∧ args.map Value.type = type.params ∧
      List.Forall₂ (fun v x => v.Denotes x.toInt) args params ∧
      target i name params = .ok (n, args) := by
  have hexports : ∃ n type, Exports i name n type := by
    by_contra hnone
    exact h _ (.missing fun n type hn => hnone ⟨n, type, hn⟩)
  obtain ⟨n, ⟨types, results⟩, hn⟩ := hexports
  have hlength : types.length = params.length := by
    by_contra hcount
    exact h _ (.count hn hcount)
  obtain htakes | ⟨ts₁, t, ts₂, xs₁, x, xs₂, f, rfl, rfl, hcount, hbefore, hf⟩ :=
    takes_or_leftmost name hlength
  · obtain ⟨args, hargs, htypes, hdenotes⟩ := arguments_of_takes name htakes
    refine ⟨n, _, args, hn, htypes, hdenotes, ?_⟩
    rw [target_of_exports hn, if_neg (not_not.mpr hlength), hargs]
    rfl
  · exact absurd (.argument hn hcount hbefore hf) (h f)

theorem run_of_refused (h : Refused i name params f) : run name params i = (.error f, i) := by
  rw [run, target_of_refused h]

/-- The number that a call answers is the one that its first result stands for. -/
theorem value_eq_some_iff {results : List Value} {x : Int64} :
    results.head?.bind Value.signed? = some x ↔
      ∃ v, results.head? = some v ∧ v.Denotes x.toInt := by
  rw [Option.bind_eq_some_iff]
  exact exists_congr fun v => and_congr_right fun _ => Value.signed?_eq_some_iff

theorem call_of_refused {c : Contract} {i : Instance HostState} (hc : c.IsDrained)
    (hi : c.live = some i) (h : Refused i name params f) : c.call name params = (.error f, c) := by
  have hraised : i.store.host.raised = [] := (hc i hi).2
  have hdrain : Contract.drain i = ([], i) := Prod.ext hraised (Instance.drained_of_raised hraised)
  have hqueue : c.queue.map (· ++ []) = c.queue := by simp
  simp only [Contract.call, hi, run_of_refused h, hdrain, hqueue]
  rw [← hi]

/-- In a valid module a name exports a function with its type, or no function at all. -/
theorem hasFunction_eq_false_iff (h : i.program.module.isValid = true) :
    i.hasFunction name = false ↔ ∀ n type, ¬Exports i name n type := by
  unfold Instance.hasFunction
  constructor
  · intro hnone n type hn
    rw [hn.1] at hnone
    cases hnone
  · intro hnone
    cases hn : i.program.module.exportedFunction? name with
    | none => rfl
    | some n =>
      obtain ⟨type, htype⟩ := Module.exists_type_of_export h hn
      exact absurd ⟨hn, htype⟩ (hnone n type)

/-- A call is refused for the first reason that there is, and for no other; the instance stays as it
is, and with it a contract whose instance it is. Otherwise the function is entered with values of its
types that stand for the given numbers, and if it returns, the call answers the number that the first
of its results stands for. -/
theorem run_refuses_or_enters (i : Instance HostState) (name : String) (params : List Int64) :
    (∀ f, Refused i name params f → run name params i = (.error f, i)) ∧
    (∀ f, (run name params i).1 = .error f → (∀ reason, f ≠ .trap reason) →
      Refused i name params f) ∧
    (∀ (code : Binary) (t : StateTree) (account : Address) (xs : List Move),
      ((Contract.new code t account).moved xs).live = some i →
        (i.hasFunction name = false ↔ ∀ n type, ¬Exports i name n type) ∧
        ∀ f, Refused i name params f → ((Contract.new code t account).moved xs).call name params =
          (.error f, (Contract.new code t account).moved xs)) ∧
    ((∀ f, ¬Refused i name params f) → ∃ n type args, Exports i name n type ∧
      args.map Value.type = type.params ∧
      List.Forall₂ (fun v x => v.Denotes x.toInt) args params ∧
      (∀ results s, i.program.enter n args i.store = .ends (results, s) →
        ∃ value, run name params i = (.ok value, { i with store := s }) ∧
          ∀ x, value = some x ↔ ∃ v, results.head? = some v ∧ v.Denotes x.toInt) ∧
      ∀ trap s, i.program.enter n args i.store = .traps trap s →
        run name params i = (.error (.trap trap.message), { i with store := s })) := by
  refine ⟨fun f h => run_of_refused h, fun f hf htrap => ?_, fun code t account xs hi => ?_,
    fun h => ?_⟩
  · by_contra hnot
    -- what else it could be refused for would have been told instead
    have hnone : ∀ g, ¬Refused i name params g := by
      intro g hg
      rw [run_of_refused hg] at hf
      cases hf
      exact hnot hg
    obtain ⟨n, type, args, -, -, -, htarget⟩ := exists_target hnone
    simp only [run, htarget] at hf
    split at hf
    · cases hf
    · cases hf
      exact htrap _ rfl
  · have hvalid := ((Contract.isValid_new code t account).moved xs) i hi
    exact ⟨hasFunction_eq_false_iff hvalid, fun f h =>
      call_of_refused ((Contract.isDrained_new code t account).moved xs) hi h⟩
  · obtain ⟨n, type, args, hn, htypes, hdenotes, htarget⟩ := exists_target h
    refine ⟨n, type, args, hn, htypes, hdenotes, fun results s hends => ?_, fun trap s htraps => ?_⟩
    · refine ⟨results.head?.bind Value.signed?, ?_, fun x => value_eq_some_iff⟩
      rw [run, htarget]
      simp only [hends]
    · rw [run, htarget]
      simp only [htraps]

/-- Two functions and the memory that their module shows. For the last parameter of the first one no
number is taken. -/
def blend : Module where
  imports := []
  functions := [⟨⟨[.i64, .i32, .v128], [.i32]⟩, [], .op (.localGet 1) .done⟩,
    ⟨⟨[.i64, .i32], [.i32]⟩, [], .op (.localGet 1) .done⟩]
  memories := [⟨1, none, false, false⟩]
  globals := []
  exports := [⟨Program.memoryName, .memory 0⟩, ⟨"blend", .function 0⟩, ⟨"pick", .function 1⟩]
  starts := []
  segments := []

def blender : Instance HostState :=
  ⟨⟨blend, [], [16, 16]⟩, [.zeros pageSize], [], ⟨⟨.zero, .zero, [], .initial, none⟩, [], true⟩⟩

/-- In the instance that a message makes, the least number that 32 bits do not hold is refused before
the parameter behind it counts, and the number before it is not. A negative number that is taken is
answered as it is. -/
theorem run_refuses_or_enters_blender :
    ((Contract.new (.compiled blend) meterState .zero).receive ⟨.zero, [], 100⟩).2.live =
      some blender ∧
    run "blend" [5, 2 ^ 31, 0] blender = (.error (.paramOutOfRange "blend" (2 ^ 31)), blender) ∧
    run "blend" [5, 2 ^ 31 - 1, 0] blender =
      (.error (.unsupportedParam "blend" "v128"), blender) ∧
    run "pick" [5, -7] blender = (.ok (some (-7)), blender) := by
  have hsecond : Exports blender "blend" 0 ⟨[.i64] ++ .i32 :: [.v128], [.i32]⟩ :=
    ⟨by decide, by decide⟩
  have hthird : Exports blender "blend" 0 ⟨[.i64, .i32] ++ .v128 :: [], [.i32]⟩ := hsecond
  have hwide : ¬IsNarrow (2 ^ 31) := by unfold IsNarrow; decide
  have hnarrow : Takes .i32 (2 ^ 31 - 1) := .inr ⟨rfl, by decide, by decide⟩
  have hrange := (run_refuses_or_enters blender "blend" ([5] ++ 2 ^ 31 :: [0])).1 _
    (.argument hsecond rfl (.cons (.inl rfl) .nil) (.outOfRange hwide))
  have htype := (run_refuses_or_enters blender "blend" ([5, 2 ^ 31 - 1] ++ 0 :: [])).1 _
    (.argument hthird rfl (.cons (.inl rfl) (.cons hnarrow .nil))
      (.unsupported (by decide) (by decide)))
  have htarget : target blender "pick" [5, -7] = .ok (1, [.i64 5, .i32 (-7)]) := by rfl
  obtain ⟨n, type, args, hn, -, hdenotes, hends, -⟩ :=
    (run_refuses_or_enters blender "pick" [5, -7]).2.2.2 (not_refused_of_target htarget)
  obtain rfl : 1 = n := Option.some.inj hn.1
  obtain ⟨v, w, rfl, hw⟩ : ∃ v w, args = [v, w] ∧ w.Denotes (Int64.toInt (-7)) := by
    obtain _ | ⟨-, _ | ⟨hw, _ | _⟩⟩ := hdenotes
    exact ⟨_, _, rfl, hw⟩
  have henter : blender.program.enter 1 [v, w] blender.store = .ends ([w], blender.store) := by rfl
  obtain ⟨value, hrun, hvalue⟩ := hends _ _ henter
  obtain rfl := (hvalue (-7)).mpr ⟨w, rfl, hw⟩
  exact ⟨by rfl, hrange, htype, hrun⟩

end Call

end OpcodeConformance
