import OpcodeConformance.Proofs.Word
import OpcodeConformance.Verdict

namespace OpcodeConformance

/-- A word that is expected at an address, with what its failure is about. -/
structure Expectation where
  field : Field
  word : String
  address : Nat
  deriving DecidableEq, Repr

structure Expectation.IsMet (f : FlatMemory) (e : Expectation) : Prop where
  spelled : Word.IsSpelled e.word
  inside : e.address + Word.size ≤ f.size
  number : Hex.number e.word = Bytes.littleValue (f.slice e.address Word.size)

instance (f : FlatMemory) (e : Expectation) : Decidable (e.IsMet f) :=
  decidable_of_iff (Word.IsSpelled e.word ∧ e.address + Word.size ≤ f.size ∧
      Hex.number e.word = Bytes.littleValue (f.slice e.address Word.size))
    ⟨fun ⟨hs, hi, hn⟩ => ⟨hs, hi, hn⟩, fun ⟨hs, hi, hn⟩ => ⟨hs, hi, hn⟩⟩

namespace Verdict

variable {κ ω : Type}

def wordProblems (m : Machine κ ω) : List Expectation → StateM ω (List (Field × String))
  | [] => return []
  | e :: es => do
    let p ← wordProblem? m e.word e.address
    let ps ← wordProblems m es
    return (p.map (e.field, ·)).toList ++ ps

/-- The words that are expected on the stack, the first of them in slot `index`. -/
def stackExpectations (index : Nat) (ws : List String) : List Expectation :=
  (ws.zipIdx index).map fun w => ⟨.stack w.2, w.1, w.2 * Word.size⟩

def memoryExpectations (base : Nat) (ws : List (Nat × String)) : List Expectation :=
  ws.map fun w => ⟨.memory w.1, w.2, w.1 + base⟩

def expectations (base : Nat) (c : Case) : List Expectation :=
  stackExpectations 0 c.output.stack ++ memoryExpectations base c.output.memory.entries

theorem stackExpectations_cons (index : Nat) (w : String) (ws : List String) :
    stackExpectations index (w :: ws) =
      ⟨.stack index, w, index * Word.size⟩ :: stackExpectations (index + 1) ws := by
  rw [stackExpectations, List.zipIdx_cons, List.map_cons]
  rfl

theorem stackProblems_eq (m : Machine κ ω) (index : Nat) (ws : List String) :
    stackProblems m index ws = wordProblems m (stackExpectations index ws) := by
  induction ws generalizing index with
  | nil => rfl
  | cons w ws ih =>
    rw [stackProblems, stackExpectations_cons, wordProblems, ih]

theorem memoryProblems_eq (m : Machine κ ω) (base : Nat) (ws : List (Nat × String)) :
    memoryProblems m base ws = wordProblems m (memoryExpectations base ws) := by
  induction ws with
  | nil => rfl
  | cons w ws ih =>
    rw [memoryProblems, memoryExpectations, List.map_cons, wordProblems, ih]
    rfl

theorem wordProblems_append (m : Machine κ ω) (es es' : List Expectation) :
    wordProblems m (es ++ es') = do
      let ps ← wordProblems m es
      let ps' ← wordProblems m es'
      return ps ++ ps' := by
  induction es with
  | nil => rfl
  | cons e es ih =>
    simp only [List.cons_append, wordProblems, ih, bind_assoc, pure_bind, List.append_assoc]

/-- Between the pointer and the payload stand the problems of the expected words. -/
theorem problems_fst (m : Machine κ ω) (base : Nat) (c : Case) (o : Observation) (s : ω) :
    (problems m base c o s).1 =
      ((stackPointerProblem? o.stackPointer).map (Field.stackPointer, ·)).toList
        ++ (wordProblems m (expectations base c) s).1
        ++ ((returnedProblem? c.output.returned o.returned).map (Field.returned, ·)).toList
        ++ ((gasProblem? c.output.gasUsed o.gasUsed).map (Field.gasUsed, ·)).toList := by
  have hwords : problems m base c o = do
      let ps ← wordProblems m (expectations base c)
      return ((stackPointerProblem? o.stackPointer).map (Field.stackPointer, ·)).toList ++ ps
        ++ ((returnedProblem? c.output.returned o.returned).map (Field.returned, ·)).toList
        ++ ((gasProblem? c.output.gasUsed o.gasUsed).map (Field.gasUsed, ·)).toList := by
    rw [problems, stackProblems_eq, memoryProblems_eq, expectations, wordProblems_append]
    simp only [bind_assoc, pure_bind, List.append_assoc]
  rw [hwords]
  rfl

theorem wordProblems_cons (m : Machine κ ω) (e : Expectation) (es : List Expectation) (s : ω) :
    wordProblems m (e :: es) s =
      let p := wordProblem? m e.word e.address s
      let ps := wordProblems m es p.2
      ((p.1.map (e.field, ·)).toList ++ ps.1, ps.2) := by
  rw [wordProblems, Action.bind_of_eq (Prod.eta _).symm, Action.bind_of_eq (Prod.eta _).symm]
  rfl

theorem exists_of_mem_wordProblems {m : Machine κ ω} {es : List Expectation} {s : ω}
    {p : Field × String} (h : p ∈ (wordProblems m es s).1) : ∃ e ∈ es, e.field = p.1 := by
  induction es generalizing s with
  | nil => cases h
  | cons e es ih =>
    rw [wordProblems_cons] at h
    rcases List.mem_append.mp h with h | h
    · obtain ⟨message, -, rfl⟩ := Option.map_eq_some_iff.mp (Option.mem_toList.mp h)
      exact ⟨e, .head _, rfl⟩
    · obtain ⟨e', he', hfield⟩ := ih h
      exact ⟨e', .tail _ he', hfield⟩

theorem check_eq (m : Machine κ ω) (base : Nat) (file : String) (c : Case) (o : Observation)
    (s : ω) : check m base file c o s =
      ((problems m base c o s).1.map (failure file c), (problems m base c o s).2) := rfl

/-- A verdict is empty if nothing is wrong with the pointer, the words, the payload and the gas. -/
theorem check_eq_nil_iff {m : Machine κ ω} {base : Nat} {file : String} {c : Case}
    {o : Observation} {s : ω} : (check m base file c o s).1 = [] ↔
      stackPointerProblem? o.stackPointer = none ∧
        (wordProblems m (expectations base c) s).1 = [] ∧
        returnedProblem? c.output.returned o.returned = none ∧
        gasProblem? c.output.gasUsed o.gasUsed = none := by
  rw [check_eq, List.map_eq_nil_iff, problems_fst]
  simp only [List.append_eq_nil_iff, Option.toList_eq_nil_iff, Option.map_eq_none_iff, and_assoc]

theorem mem_problems_iff {m : Machine κ ω} {base : Nat} {c : Case} {o : Observation} {s : ω}
    {p : Field × String} : p ∈ (problems m base c o s).1 ↔
      p ∈ (wordProblems m (expectations base c) s).1 ∨
        (p.1 = .stackPointer ∧ stackPointerProblem? o.stackPointer = some p.2) ∨
        (p.1 = .returned ∧ returnedProblem? c.output.returned o.returned = some p.2) ∨
        (p.1 = .gasUsed ∧ gasProblem? c.output.gasUsed o.gasUsed = some p.2) := by
  obtain ⟨field, message⟩ := p
  rw [problems_fst]
  simp only [List.mem_append, Option.mem_toList, Option.map_eq_some_iff, Prod.mk.injEq]
  grind

theorem exists_stack_expectation {base k : Nat} {c : Case} {p : Expectation → Prop} :
    (∃ e ∈ expectations base c, e.field = .stack k ∧ p e) ↔
      ∃ w, c.output.stack[k]? = some w ∧ p ⟨.stack k, w, k * Word.size⟩ := by
  constructor
  · rintro ⟨e, he, hfield, hp⟩
    rcases List.mem_append.mp he with he | he
    · obtain ⟨⟨w, j⟩, hw, rfl⟩ := List.mem_map.mp he
      obtain rfl := Field.stack.inj hfield
      exact ⟨w, List.mem_zipIdx_iff_getElem?.mp hw, hp⟩
    · obtain ⟨w, -, rfl⟩ := List.mem_map.mp he
      cases hfield
  · rintro ⟨w, hw, hp⟩
    have hmem : (w, k) ∈ c.output.stack.zipIdx := List.mem_zipIdx_iff_getElem?.mpr hw
    exact ⟨_, List.mem_append_left _ (List.mem_map.mpr ⟨(w, k), hmem, rfl⟩), rfl, hp⟩

theorem exists_memory_expectation {base offset : Nat} {c : Case} {p : Expectation → Prop} :
    (∃ e ∈ expectations base c, e.field = .memory offset ∧ p e) ↔
      ∃ w, (offset, w) ∈ c.output.memory.entries ∧ p ⟨.memory offset, w, offset + base⟩ := by
  constructor
  · rintro ⟨e, he, hfield, hp⟩
    rcases List.mem_append.mp he with he | he
    · obtain ⟨w, -, rfl⟩ := List.mem_map.mp he
      cases hfield
    · obtain ⟨⟨j, w⟩, hw, rfl⟩ := List.mem_map.mp he
      obtain rfl := Field.memory.inj hfield
      exact ⟨w, hw, hp⟩
  · rintro ⟨w, hw, hp⟩
    exact ⟨_, List.mem_append_right _ (List.mem_map.mpr ⟨(offset, w), hw, rfl⟩), rfl, hp⟩

section Flat

variable {m : Machine κ ω} {view : ω → Option FlatMemory} {f : FlatMemory} {s : ω}

/-- On a flat memory nothing is wrong with an expected word if and only if it is met. -/
theorem wordProblem?_of_view (hm : m.IsFlat view) (hs : view s = some f) (e : Expectation) :
    ((wordProblem? m e.word e.address s).1 = none ↔ e.IsMet f) ∧
      view (wordProblem? m e.word e.address s).2 = some f := by
  unfold wordProblem?
  cases hword : Word.ofHex e.word Word.size with
  | error problem =>
    have hunmet : ¬e.IsMet f := by
      rintro ⟨⟨word, h⟩, -, -⟩
      cases hword.symm.trans h
    exact ⟨iff_of_false (Option.some_ne_none _) hunmet, hs⟩
  | ok word =>
    obtain ⟨hread, hview⟩ := Word.read_of_view hm hs e.address Word.size
    by_cases hinside : e.address + Word.size ≤ f.size
    · rw [FlatMemory.read?_of_le hinside] at hread
      rcases hrun : Word.read m e.address Word.size s with ⟨_ | actual, t⟩
      · rw [hrun] at hread
        cases hread
      · rw [hrun] at hread hview
        obtain rfl := Option.some.inj hread
        have hequal := Word.memoryOrder_eq_iff hword (f.length_slice e.address Word.size)
        refine ⟨?_, hview⟩
        simp only [ite_eq_left_iff, reduceCtorEq, imp_false, not_not, hequal]
        exact ⟨fun h => ⟨⟨word, hword⟩, hinside, h⟩, fun h => h.number⟩
    · have hunmet : ¬e.IsMet f := fun h => hinside h.inside
      rw [FlatMemory.read?_of_not_le hinside] at hread
      rcases hrun : Word.read m e.address Word.size s with ⟨problem | actual, t⟩
      · rw [hrun] at hview
        exact ⟨iff_of_false (Option.some_ne_none _) hunmet, hview⟩
      · rw [hrun] at hread
        cases hread

/-- On a flat memory the words that are told are the expectations that are not met, in order. -/
theorem fields_wordProblems (hm : m.IsFlat view) (hs : view s = some f) (es : List Expectation) :
    (wordProblems m es s).1.map (·.1) = (es.filter fun e => ¬e.IsMet f).map (·.field) ∧
      view (wordProblems m es s).2 = some f := by
  induction es generalizing s with
  | nil => exact ⟨rfl, hs⟩
  | cons e es ih =>
    obtain ⟨hnone, hview⟩ := wordProblem?_of_view hm hs e
    obtain ⟨hfields, hrest⟩ := ih hview
    rw [wordProblems_cons]
    refine ⟨?_, hrest⟩
    rw [List.map_append, hfields]
    by_cases hmet : e.IsMet f
    · rw [hnone.mpr hmet, List.filter_cons_of_neg (by simpa using hmet)]
      rfl
    · obtain ⟨message, hmessage⟩ := Option.ne_none_iff_exists'.mp (hnone.not.mpr hmet)
      rw [hmessage, List.filter_cons_of_pos (by simpa using hmet)]
      rfl

theorem wordProblems_eq_nil_iff (hm : m.IsFlat view) (hs : view s = some f)
    {es : List Expectation} : (wordProblems m es s).1 = [] ↔ ∀ e ∈ es, e.IsMet f := by
  rw [← List.map_eq_nil_iff (f := Prod.fst), (fields_wordProblems hm hs es).1, List.map_eq_nil_iff,
    List.filter_eq_nil_iff]
  simp only [decide_not, Bool.not_eq_true', decide_eq_false_iff_not, not_not]

/-- On a flat memory there is a failure about a word if and only if an expectation is not met. -/
theorem exists_failure_iff (hm : m.IsFlat view) (hs : view s = some f) {base : Nat} {file : String}
    {c : Case} {o : Observation} {field : Field} (hpointer : field ≠ .stackPointer)
    (hreturned : field ≠ .returned) (hgas : field ≠ .gasUsed) :
    (∃ x ∈ (check m base file c o s).1, x.field = field) ↔
      ∃ e ∈ expectations base c, e.field = field ∧ ¬e.IsMet f := by
  constructor
  · rintro ⟨x, hx, rfl⟩
    rw [check_eq] at hx
    obtain ⟨p, hp, rfl⟩ := List.mem_map.mp hx
    have hword : p ∈ (wordProblems m (expectations base c) s).1 := by
      rcases mem_problems_iff.mp hp with h | ⟨h, -⟩ | ⟨h, -⟩ | ⟨h, -⟩
      · exact h
      · exact absurd h hpointer
      · exact absurd h hreturned
      · exact absurd h hgas
    have hfield := List.mem_map_of_mem (f := Prod.fst) hword
    rw [(fields_wordProblems hm hs _).1] at hfield
    obtain ⟨e, he, hfield⟩ := List.mem_map.mp hfield
    obtain ⟨he, hunmet⟩ := List.mem_filter.mp he
    exact ⟨e, he, hfield, of_decide_eq_true hunmet⟩
  · rintro ⟨e, he, rfl, hunmet⟩
    have hfield : e.field ∈ (wordProblems m (expectations base c) s).1.map (·.1) := by
      rw [(fields_wordProblems hm hs _).1]
      exact List.mem_map.mpr ⟨e, List.mem_filter.mpr ⟨he, decide_eq_true hunmet⟩, rfl⟩
    obtain ⟨p, hp, hfield⟩ := List.mem_map.mp hfield
    exact ⟨failure file c p, List.mem_map.mpr ⟨p, mem_problems_iff.mpr (.inl hp), rfl⟩, hfield⟩

end Flat

/-- A verdict is never about what comes before it. -/
theorem field_of_mem_check {m : Machine κ ω} {base : Nat} {file : String} {c : Case}
    {o : Observation} {s : ω} {f : Failure} (h : f ∈ (check m base file c o s).1) :
    f.field ≠ .setup ∧ f.field ≠ .execution := by
  rw [check_eq] at h
  obtain ⟨p, hp, rfl⟩ := List.mem_map.mp h
  change p.1 ≠ .setup ∧ p.1 ≠ .execution
  rcases mem_problems_iff.mp hp with hp | ⟨hp, -⟩ | ⟨hp, -⟩ | ⟨hp, -⟩
  · obtain ⟨e, he, hfield⟩ := exists_of_mem_wordProblems hp
    rw [← hfield]
    rcases List.mem_append.mp he with he | he <;> obtain ⟨w, -, rfl⟩ := List.mem_map.mp he <;>
      exact ⟨by simp, by simp⟩
  all_goals
    rw [hp]
    decide

end Verdict

end OpcodeConformance
