import OpcodeConformance.Proofs.Opcode.Priming
import OpcodeConformance.Verdict

namespace OpcodeConformance.Verdict

open Wasm Opcode

variable {c : Contract} {p : Program HostState} {e : Environment} {m : Memory} {sp : UInt32}
  {waiting : List Effect}

/-- The expected words of the stack are met if the slots hold their numbers. -/
theorem isMet_stackExpectations_iff {k : Nat} {ws : List String}
    (hws : ∀ w ∈ ws, Word.IsSpelled w) (hsize : (k + ws.length) * Word.size ≤ m.size) :
    (∀ e ∈ stackExpectations k ws, e.IsMet m.flat) ↔ ws.map Hex.number = m.slots k ws.length := by
  induction ws generalizing k with
  | nil => exact iff_of_true (fun e he => nomatch he) rfl
  | cons w ws ih =>
    rw [List.length_cons] at hsize
    have hfits : k * Word.size + Word.size ≤ m.size :=
      Nat.le_trans (Word.slot_end_le (by omega)) hsize
    have hfits' : (k + 1 + ws.length) * Word.size ≤ m.size := by
      rwa [Nat.add_right_comm, Nat.add_assoc]
    have hword : (Expectation.mk (.stack k) w (k * Word.size)).IsMet m.flat ↔
        Hex.number w = m.slot k :=
      ⟨fun h => h.number, fun h => ⟨hws w (.head _), hfits, h⟩⟩
    rw [stackExpectations_cons, List.forall_mem_cons, hword,
      ih (fun v hv => hws v (.tail _ hv)) hfits', List.map_cons, List.length_cons,
      Memory.slots_succ, List.cons.injEq]

theorem stackPointerProblem?_slot {n : Nat} (h : n ≤ 2 ^ 32) :
    stackPointerProblem? (some (Int64.ofNat (n * Word.size))) = none := by
  have hle : n * 32 < 2 ^ 63 := by omega
  have htoInt : (Int64.ofNat (n * Word.size)).toInt = (n : Int) * 32 := by
    have h64 : (Int64.ofNat (n * 32)).toInt = ((n * 32 : Nat) : Int) := Int64.toInt_ofNat_of_lt hle
    exact h64.trans (Int.natCast_mul n 32)
  have hpositive : ¬(n : Int) * 32 < 0 := by omega
  have haligned : (n : Int) * 32 % (Word.size : Nat) = 0 := Int.mul_emod_left _ _
  simp only [stackPointerProblem?, htoInt, hpositive, haligned, if_false, ne_eq, not_true_eq_false]

theorem stackPointerProblem?_of_neg {pointer : Int64} (h : pointer.toInt < 0) :
    stackPointerProblem? (some pointer) ≠ none := by
  simp [stackPointerProblem?, h]

/-- A wrong pointer is a failure of its own, whatever is expected. -/
theorem exists_stackPointer_failure {κ ω : Type} {machine : Machine κ ω} {base : Nat}
    {file : String} {case : Case} {o : Observation} {s : ω}
    (h : stackPointerProblem? o.stackPointer ≠ none) :
    ∃ f ∈ (check machine base file case o s).1, f.field = .stackPointer := by
  obtain ⟨message, hmessage⟩ := Option.ne_none_iff_exists'.mp h
  refine ⟨failure file case (.stackPointer, message), ?_, rfl⟩
  rw [check_eq]
  exact List.mem_map_of_mem (mem_problems_iff.mpr (.inr (.inl ⟨rfl, hmessage⟩)))

theorem gasProblem?_eq_none {expected : Option UInt64} {actual : UInt64} :
    gasProblem? expected actual = none ↔ expected = none ∨ expected = some actual := by
  cases expected with
  | none => simp [gasProblem?]
  | some x => simp [gasProblem?]

/-- A case without expectations of the memory and the payload passes with a right pointer if the
stack holds the expected numbers and the expected gas was used. -/
theorem check_session (hp : p.shown? = some 0) {base : Nat} {file : String} {case : Case}
    {o : Observation} (hpointer : stackPointerProblem? o.stackPointer = none)
    (hstack : ∀ w ∈ case.output.stack, Word.IsSpelled w)
    (hsize : case.output.stack.length * Word.size ≤ m.size)
    (hmemory : case.output.memory = .empty) (hreturned : case.output.returned = none) :
    (check Machine.contract base file case o (session c p e m sp waiting)).1 = [] ↔
      case.output.stack.map Hex.number = m.slots 0 case.output.stack.length ∧
        (case.output.gasUsed = none ∨ case.output.gasUsed = some o.gasUsed) := by
  have hview : (session c p e m sp waiting).view = some m.flat := by
    simp [Contract.view, session, memory_instanceOf hp]
  have hexpectations : expectations base case = stackExpectations 0 case.output.stack := by
    rw [expectations, hmemory]
    exact List.append_nil _
  rw [← Nat.zero_add case.output.stack.length] at hsize
  have hwords : (wordProblems Machine.contract (expectations base case)
      (session c p e m sp waiting)).1 = [] ↔
        case.output.stack.map Hex.number = m.slots 0 case.output.stack.length := by
    rw [hexpectations, wordProblems_eq_nil_iff isFlat_contract hview,
      isMet_stackExpectations_iff hstack hsize]
  rw [check_eq_nil_iff, hwords, gasProblem?_eq_none, hreturned]
  constructor
  · rintro ⟨-, hslots, -, hgas⟩
    exact ⟨hslots, hgas⟩
  · rintro ⟨hslots, hgas⟩
    exact ⟨hpointer, hslots, rfl, hgas⟩

end OpcodeConformance.Verdict
