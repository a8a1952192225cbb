import OpcodeConformance.Dispatch
import OpcodeConformance.Proofs.Word

namespace OpcodeConformance.PreparedInput

variable {input : CaseInput} {i : PreparedInput}

def Decodes (e : Nat × String) (w : Nat × Bytes) : Prop :=
  e.1 = w.1 ∧ Word.ofHex e.2 Word.size = .ok w.2

theorem decodes_iff {e : Nat × String} {w : Nat × Bytes} :
    (do return (e.1, ← Word.ofHex e.2 Word.size) : Except HarnessError (Nat × Bytes)) = .ok w ↔
      Decodes e w := by
  obtain ⟨offset, word⟩ := w
  unfold Decodes
  cases Word.ofHex e.2 Word.size with
  | error f =>
    constructor
    · intro h
      cases h
    · rintro ⟨-, h⟩
      cases h
  | ok bs =>
    constructor
    · intro h
      cases h
      exact ⟨rfl, rfl⟩
    · rintro ⟨rfl, h⟩
      cases h
      rfl

theorem ofInput_eq_ok_iff :
    ofInput input = .ok i ↔
      List.Forall₂ (fun s w => Word.ofHex s Word.size = .ok w) input.stack i.stack ∧
        List.Forall₂ Decodes input.memory.entries i.memory := by
  constructor
  · intro h
    obtain ⟨stack, hstack, h⟩ := Results.bind_eq_ok h
    obtain ⟨memory, hmemory, h⟩ := Results.bind_eq_ok h
    cases h
    exact ⟨Results.forall₂_of_mapM hstack,
      (Results.forall₂_of_mapM hmemory).imp fun _ _ => decodes_iff.mp⟩
  · rintro ⟨hstack, hmemory⟩
    have hentries := Results.mapM_of_forall₂ (hmemory.imp fun _ _ => decodes_iff.mpr)
    rw [ofInput, Results.mapM_of_forall₂ hstack]
    simp only [bind, Except.bind] at hentries ⊢
    rw [hentries]
    rfl

def texts (input : CaseInput) : List String := input.stack ++ input.memory.entries.map (·.2)

/-- An input can be prepared if and only if all its texts are words. -/
theorem exists_ofInput_iff :
    (∃ i, ofInput input = .ok i) ↔ ∀ w ∈ texts input, Word.IsSpelled w := by
  constructor
  · rintro ⟨i, hi⟩ w hw
    obtain ⟨hstack, hmemory⟩ := ofInput_eq_ok_iff.mp hi
    rcases List.mem_append.mp hw with hw | hw
    · obtain ⟨bs, -, hbs⟩ := Results.exists_mem_of_forall₂ hstack hw
      exact ⟨bs, hbs⟩
    · obtain ⟨e, he, rfl⟩ := List.mem_map.mp hw
      obtain ⟨v, -, -, hv⟩ := Results.exists_mem_of_forall₂ hmemory he
      exact ⟨v.2, hv⟩
  · intro h
    obtain ⟨stack, hstack⟩ := Results.exists_mapM fun w hw => h w (List.mem_append_left _ hw)
    have hentry : ∀ e ∈ input.memory.entries, ∃ w,
        (do return (e.1, ← Word.ofHex e.2 Word.size) : Except HarnessError (Nat × Bytes)) =
          .ok w := by
      intro e he
      obtain ⟨bs, hbs⟩ := h e.2 (List.mem_append_right _ (List.mem_map.mpr ⟨e, he, rfl⟩))
      exact ⟨(e.1, bs), decodes_iff.mpr ⟨rfl, hbs⟩⟩
    obtain ⟨memory, hmemory⟩ := Results.exists_mapM hentry
    exact ⟨⟨stack, memory⟩, ofInput_eq_ok_iff.mpr ⟨Results.forall₂_of_mapM hstack,
      (Results.forall₂_of_mapM hmemory).imp fun _ _ => decodes_iff.mp⟩⟩

theorem length_of_mem_stack (h : ofInput input = .ok i) {w : Bytes} (hw : w ∈ i.stack) :
    w.length = Word.size := by
  obtain ⟨s, -, hs⟩ := Results.exists_mem_of_forall₂ (ofInput_eq_ok_iff.mp h).1.flip hw
  exact (Word.ofHex_eq_ok hs).1

theorem length_of_mem_memory (h : ofInput input = .ok i) {w : Nat × Bytes} (hw : w ∈ i.memory) :
    w.2.length = Word.size := by
  obtain ⟨e, -, -, he⟩ := Results.exists_mem_of_forall₂ (ofInput_eq_ok_iff.mp h).2.flip hw
  exact (Word.ofHex_eq_ok he).1

/-- An input of words is decoded, the words of the stack to their numbers, and the words of the
memory at their offsets. -/
theorem ofInput_eq_ok (hstack : ∀ w ∈ input.stack, Word.IsSpelled w)
    (hmemory : ∀ w ∈ input.memory.entries, Word.IsSpelled w.2) :
    ∃ i, ofInput input = .ok i ∧ (∀ w ∈ i.stack, w.length = Word.size) ∧
      i.stack.map Bytes.bigValue = input.stack.map Hex.number ∧
      ∀ w ∈ i.memory, w.2.length = Word.size ∧ ∃ v ∈ input.memory.entries, v.1 = w.1 := by
  have htexts : ∀ w ∈ texts input, Word.IsSpelled w := by
    intro w hw
    rcases List.mem_append.mp hw with hw | hw
    · exact hstack w hw
    · obtain ⟨e, he, rfl⟩ := List.mem_map.mp hw
      exact hmemory e he
  obtain ⟨i, hi⟩ := exists_ofInput_iff.mpr htexts
  obtain ⟨hwords, hentries⟩ := ofInput_eq_ok_iff.mp hi
  refine ⟨i, hi, fun w => length_of_mem_stack hi, ?_, fun w hw => ⟨length_of_mem_memory hi hw, ?_⟩⟩
  · exact (Results.map_eq_of_forall₂ (hwords.imp fun _ _ h => (Word.ofHex_eq_ok h).2.symm)).symm
  · obtain ⟨e, he, hoffset, -⟩ := Results.exists_mem_of_forall₂ hentries.flip hw
    exact ⟨e, he, hoffset⟩

/-- Decoding keeps the offsets of the memory. -/
theorem keys_of_ofInput (h : ofInput input = .ok i) : i.memory.map (·.1) = input.memory.keys :=
  (Results.map_eq_of_forall₂ ((ofInput_eq_ok_iff.mp h).2.imp fun _ _ hw => hw.1)).symm

theorem ascending_of_ofInput (h : ofInput input = .ok i) :
    i.memory.Pairwise fun a b => a.1 < b.1 := by
  have hkeys : (i.memory.map (·.1)).Pairwise (· < ·) := by
    rw [keys_of_ofInput h, Table.keys, List.pairwise_map]
    exact input.memory.ascending.imp fun hab => Nat.compare_eq_lt.1 hab
  exact List.pairwise_map.1 hkeys

end OpcodeConformance.PreparedInput
