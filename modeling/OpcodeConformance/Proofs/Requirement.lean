import OpcodeConformance.Proofs.Contract.Runs
import OpcodeConformance.Proofs.Expectation

namespace OpcodeConformance

inductive Requirement where
  | pointer
  | word (e : Expectation)
  | returned (text : String)
  | gasUsed (amount : UInt64)
  deriving DecidableEq, Repr

namespace Requirement

def field : Requirement → Field
  | pointer => .stackPointer
  | word e => e.field
  | returned _ => .returned
  | gasUsed _ => .gasUsed

/-- Whether a memory, and what else a run has left, are as required. A word stands in memory with
its least significant byte first, and its text has zeros in front up to the full length. -/
def IsMet (f : FlatMemory) (o : Observation) : Requirement → Prop
  | pointer => ∃ p, o.stackPointer = some p ∧ 0 ≤ p.toInt ∧ (Word.size : Int) ∣ p.toInt
  | word e => ∃ bs, Hex.decode e.word = .ok bs ∧ bs.length ≤ Word.size ∧
      e.address + Word.size ≤ f.size ∧
      (f.slice e.address Word.size).reverse = List.replicate (Word.size - bs.length) 0 ++ bs
  | returned text => ∃ bs, Hex.decode text = .ok bs ∧ o.returned = some bs
  | gasUsed amount => o.gasUsed = amount

def wordProblem? (f : FlatMemory) (e : Expectation) : Option String :=
  match Word.ofHex e.word Word.size with
  | .error p => some p.message
  | .ok expected =>
    match f.fetch e.address Word.size with
    | .error p => some (HarnessError.ofFault p).message
    | .ok bs =>
      if Word.memoryOrder bs = expected then none
      else some (Verdict.difference expected (Word.memoryOrder bs))

def problem? (f : FlatMemory) (o : Observation) : Requirement → Option String
  | pointer => Verdict.stackPointerProblem? o.stackPointer
  | word e => wordProblem? f e
  | returned text => Verdict.returnedProblem? (some text) o.returned
  | gasUsed amount => Verdict.gasProblem? (some amount) o.gasUsed

def failure? (f : FlatMemory) (o : Observation) (file : String) (c : Case) (r : Requirement) :
    Option Failure :=
  (r.problem? f o).map fun text => ⟨file, c.label, r.field, text⟩

def ofCase (base : Nat) (c : Case) : List Requirement :=
  .pointer :: (Verdict.expectations base c).map .word
    ++ (c.output.returned.map .returned).toList ++ (c.output.gasUsed.map .gasUsed).toList

end Requirement

namespace Verdict

theorem stackPointerProblem?_eq_none_iff {pointer : Option Int64} :
    stackPointerProblem? pointer = none ↔
      ∃ p, pointer = some p ∧ 0 ≤ p.toInt ∧ (Word.size : Int) ∣ p.toInt := by
  cases pointer with
  | none => simp [stackPointerProblem?]
  | some p =>
    simp only [Option.some.injEq, exists_eq_left', Int.dvd_iff_emod_eq_zero, ← Int.not_lt]
    by_cases hneg : p.toInt < 0
    · simp [stackPointerProblem?, hneg]
    · by_cases haligned : p.toInt % Word.size = 0 <;>
        simp [stackPointerProblem?, hneg, haligned]

theorem returnedProblem?_eq_none_iff {text : String} {actual : Option Bytes} :
    returnedProblem? (some text) actual = none ↔
      ∃ bs, Hex.decode text = .ok bs ∧ actual = some bs := by
  simp only [← Word.bytesOfHex_eq_ok_iff]
  unfold returnedProblem?
  split
  · rename_i hnone
    cases hnone
  · rename_i hsome
    cases hsome
    split <;> simp [*, eq_comm]

end Verdict

namespace Requirement

variable {f : FlatMemory} {o : Observation} {r : Requirement}

theorem wordProblem?_eq_none_iff {e : Expectation} :
    wordProblem? f e = none ↔ ∃ expected bs, Word.ofHex e.word Word.size = .ok expected ∧
      f.fetch e.address Word.size = .ok bs ∧ bs.reverse = expected := by
  unfold wordProblem?
  cases Word.ofHex e.word Word.size with
  | error p => simp
  | ok expected =>
    cases f.fetch e.address Word.size with
    | error p => simp
    | ok bs => simp [Word.memoryOrder, eq_comm]

/-- Something is told of a requirement if and only if it is not met. -/
theorem problem?_eq_none_iff : r.problem? f o = none ↔ r.IsMet f o := by
  cases r with
  | pointer =>
    rw [problem?, Verdict.stackPointerProblem?_eq_none_iff]
    rfl
  | word e =>
    rw [problem?, wordProblem?_eq_none_iff]
    constructor
    · rintro ⟨expected, bs, hword, hfetch, rfl⟩
      obtain ⟨digits, hdecode, hle, hpadded⟩ := Word.ofHex_eq_ok_iff.mp hword
      obtain ⟨hinside, rfl⟩ := FlatMemory.fetch_eq_ok_iff.mp hfetch
      exact ⟨digits, hdecode, hle, hinside, hpadded⟩
    · rintro ⟨digits, hdecode, hle, hinside, hpadded⟩
      exact ⟨_, _, Word.ofHex_eq_ok_iff.mpr ⟨digits, hdecode, hle, rfl⟩,
        FlatMemory.fetch_eq_ok_iff.mpr ⟨hinside, rfl⟩, hpadded⟩
  | returned text =>
    rw [problem?, Verdict.returnedProblem?_eq_none_iff]
    rfl
  | gasUsed amount => simp [problem?, Verdict.gasProblem?, IsMet, eq_comm]

end Requirement

namespace Verdict

open Requirement (ofCase)

variable {κ ω : Type} {m : Machine κ ω} {view : ω → Option FlatMemory} {f : FlatMemory} {s : ω}

/-- What is told of a word depends on the memory only, and asking for it changes nothing there. -/
theorem wordProblem?_of_showsFlat (hm : m.ShowsFlat view) (hs : view s = some f)
    (e : Expectation) :
    (wordProblem? m e.word e.address s).1 = Requirement.wordProblem? f e ∧
      view (wordProblem? m e.word e.address s).2 = some f := by
  unfold wordProblem? Requirement.wordProblem?
  cases Word.ofHex e.word Word.size with
  | error p => exact ⟨rfl, hs⟩
  | ok expected =>
    obtain ⟨hread, hview⟩ := hm.read hs e.address Word.size
    rw [← hread]
    unfold Word.read
    rw [Action.bind_apply, Action.mapError]
    revert hview
    rcases m.read e.address Word.size s with ⟨_ | bs, t⟩ <;> exact fun hview => ⟨rfl, hview⟩

theorem wordProblems_of_showsFlat (hm : m.ShowsFlat view) (hs : view s = some f)
    (es : List Expectation) : (wordProblems m es s).1 =
      es.filterMap fun e => (Requirement.wordProblem? f e).map (e.field, ·) := by
  induction es generalizing s with
  | nil => rfl
  | cons e es ih =>
    obtain ⟨hword, hview⟩ := wordProblem?_of_showsFlat hm hs e
    rw [wordProblems_cons, List.filterMap_cons, ← hword]
    dsimp only
    rw [ih hview]
    cases (wordProblem? m e.word e.address s).1 <;> rfl

/-- What is told of a case is told of each of its requirements alone. -/
theorem problems_of_showsFlat (hm : m.ShowsFlat view) (hs : view s = some f) (base : Nat)
    (c : Case) (o : Observation) : (problems m base c o s).1 =
      (ofCase base c).filterMap fun r => (r.problem? f o).map (r.field, ·) := by
  have hreturned : ((c.output.returned.map Requirement.returned).toList).flatMap
      (fun r => ((r.problem? f o).map (r.field, ·)).toList) =
        ((returnedProblem? c.output.returned o.returned).map (Field.returned, ·)).toList := by
    cases c.output.returned with
    | none => rfl
    | some text => simp [Requirement.problem?, Requirement.field]
  have hgas : ((c.output.gasUsed.map Requirement.gasUsed).toList).flatMap
      (fun r => ((r.problem? f o).map (r.field, ·)).toList) =
        ((gasProblem? c.output.gasUsed o.gasUsed).map (Field.gasUsed, ·)).toList := by
    cases c.output.gasUsed with
    | none => rfl
    | some amount => simp [Requirement.problem?, Requirement.field]
  rw [problems_fst, wordProblems_of_showsFlat hm hs, ofCase, List.filterMap_eq_flatMap_toList,
    List.filterMap_eq_flatMap_toList, List.flatMap_append, List.flatMap_append, hreturned, hgas,
    List.flatMap_cons, List.flatMap_map]
  rfl

/-- The failures of a case are those of its requirements, one after the other. Each depends on its
requirement and on what the run has left, there is none if and only if the requirement is met, and
a verdict is empty if and only if all requirements are met. -/
theorem check_tells_unmet_requirements (hm : m.ShowsFlat view) (hs : view s = some f) (base : Nat)
    (file : String) (c : Case) (o : Observation) :
    (check m base file c o s).1 = (ofCase base c).filterMap (·.failure? f o file c) ∧
      (∀ r : Requirement, r.failure? f o file c = none ↔ r.IsMet f o) ∧
      ((check m base file c o s).1 = [] ↔ ∀ r ∈ ofCase base c, r.IsMet f o) := by
  have hfailure (r : Requirement) : r.failure? f o file c = none ↔ r.IsMet f o := by
    rw [Requirement.failure?, Option.map_eq_none_iff, Requirement.problem?_eq_none_iff]
  have hcheck : (check m base file c o s).1 =
      (ofCase base c).filterMap (·.failure? f o file c) := by
    rw [check_eq, problems_of_showsFlat hm hs, List.map_filterMap]
    simp only [Option.map_map]
    rfl
  refine ⟨hcheck, hfailure, ?_⟩
  rw [hcheck, List.filterMap_eq_nil_iff]
  simp only [hfailure]

/-- A case in which one expected word is met, and nothing else that it requires. -/
def meterCase : Case where
  op := "charge"
  description := ""
  environment := CaseEnvironment.record.initial
  input := ⟨[], .empty⟩
  params := []
  output := ⟨["0", "zz"], Table.empty.insert 0 "01", some "0x0102", some 7⟩

/-- Each requirement that is not met is told, and the met one between them is not. -/
theorem check_tells_unmet_requirements_meter :
    let c := (meterContract.receive ⟨.zero, [], 100⟩).2
    (check Machine.contract 65520 "meter.json" meterCase ⟨some 31, none, 5⟩ c).1.map (·.field) =
      [.stackPointer, .stack 1, .memory 0, .returned, .gasUsed] := by
  intro c
  have hlive : c.view.isSome = true := by decide +kernel
  have hview : c.view = some (c.view.getD ⟨0, fun _ => 0⟩) := by
    obtain ⟨f, hf⟩ := Option.isSome_iff_exists.mp hlive
    rw [hf, Option.getD_some]
  obtain ⟨hcheck, -, -⟩ := check_tells_unmet_requirements showsFlat_contract hview 65520
    "meter.json" meterCase ⟨some 31, none, 5⟩
  rw [hcheck]
  decide +kernel

end Verdict

end OpcodeConformance
