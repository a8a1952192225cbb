import OpcodeConformance.Proofs.FlatMemory
import OpcodeConformance.Proofs.Hex
import OpcodeConformance.Word

namespace OpcodeConformance

namespace Word

/-- A text that is accepted as a word. -/
def IsSpelled (s : String) : Prop := ∃ bs, ofHex s size = .ok bs

instance (s : String) : Decidable (IsSpelled s) := decidable_of_iff _ Results.isOk_iff

theorem slot_end_le {i n : Nat} (h : i < n) : i * size + size ≤ n * size := by
  rw [← Nat.succ_mul]
  exact Nat.mul_le_mul_right _ h

theorem length_memoryOrder (bs : Bytes) : (memoryOrder bs).length = bs.length :=
  List.length_reverse

theorem ofHex_eq_ok_iff {s : String} {len : Nat} {word : Bytes} :
    ofHex s len = .ok word ↔ ∃ bs, Hex.decode s = .ok bs ∧ bs.length ≤ len ∧
      word = List.replicate (len - bs.length) 0 ++ bs := by
  unfold ofHex decodeHex
  cases hdecode : Hex.decode s with
  | error p => simp [Except.mapError, bind, Except.bind]
  | ok bs =>
    by_cases hle : bs.length ≤ len
    · simp [Except.mapError, bind, Except.bind, hle, eq_comm, pure, Except.pure]
    · simp [Except.mapError, bind, Except.bind, hle, throw, throwThe, MonadExceptOf.throw]

theorem bytesOfHex_eq_ok_iff {s : String} {bs : Bytes} :
    bytesOfHex s = .ok bs ↔ Hex.decode s = .ok bs := by
  unfold bytesOfHex decodeHex
  cases Hex.decode s <;> simp [Except.mapError]

theorem ofHex_eq_ok {s : String} {len : Nat} {bs : Bytes} (h : ofHex s len = .ok bs) :
    bs.length = len ∧ Bytes.bigValue bs = Hex.number s := by
  obtain ⟨ds, hdecode, hle, rfl⟩ := ofHex_eq_ok_iff.mp h
  constructor
  · rw [List.length_append, List.length_replicate]
    omega
  · rw [Bytes.bigValue_replicate_append, Hex.bigValue_decode hdecode]

/-- Bytes from memory are the decoded word if they hold the number that its text spells. -/
theorem memoryOrder_eq_iff {s : String} {bs word : Bytes} (h : ofHex s size = .ok word)
    (hlength : bs.length = size) : memoryOrder bs = word ↔ Hex.number s = Bytes.littleValue bs := by
  obtain ⟨hword, hnumber⟩ := ofHex_eq_ok h
  rw [Bytes.eq_iff_bigValue (by rw [hword, length_memoryOrder, hlength]), hnumber,
    memoryOrder, Bytes.bigValue, List.reverse_reverse]
  exact eq_comm

theorem read_of_view {κ ω : Type} {m : Machine κ ω} {view : ω → Option FlatMemory}
    {f : FlatMemory} {t : ω} (hm : m.IsFlat view) (ht : view t = some f) (start len : Nat) :
    (read m start len t).1.toOption = (f.read? start len).map memoryOrder ∧
      view (read m start len t).2 = some f := by
  obtain ⟨hread, hview⟩ := hm.read ht start len
  rw [← hread, read, Action.bind_apply, Action.mapError]
  revert hview
  rcases m.read start len t with ⟨_ | bs, u⟩ <;> exact fun hview => ⟨rfl, hview⟩

end Word

namespace Memory

/-- The number in the slot of a word of the stack. -/
def slot (m : Memory) (i : Nat) : Nat :=
  Bytes.littleValue (m.slice (i * Word.size) Word.size)

/-- The numbers in `n` slots from slot `k` on. -/
def slots (m : Memory) (k n : Nat) : List Nat := (List.range' k n).map m.slot

theorem slots_succ (m : Memory) (k n : Nat) :
    m.slots k (n + 1) = m.slot k :: m.slots (k + 1) n := rfl

theorem slots_concat (m : Memory) (n : Nat) : m.slots 0 (n + 1) = m.slots 0 n ++ [m.slot n] := by
  rw [slots, List.range'_concat, List.map_append, slots]
  simp

theorem slots_congr {m m' : Memory} {n : Nat} (h : ∀ i < n, m.slot i = m'.slot i) :
    m.slots 0 n = m'.slots 0 n := by
  apply List.map_congr_left
  intro i hi
  exact h i (by simpa using (List.mem_range'_1.mp hi).2)

theorem slots_overlay (m : Memory) (n : Nat) {bs : Bytes} (hbs : bs.length = Word.size) :
    (m.overlay (n * Word.size) bs).slots 0 (n + 1) = m.slots 0 n ++ [Bytes.littleValue bs] := by
  have hbelow : (m.overlay (n * Word.size) bs).slots 0 n = m.slots 0 n := by
    apply slots_congr
    intro i hi
    rw [slot, slot, slice_overlay_of_disjoint (.inl (Word.slot_end_le hi))]
  have hslot : (m.overlay (n * Word.size) bs).slot n = Bytes.littleValue bs := by
    rw [slot, ← hbs, slice_overlay_self]
  rw [slots_concat, hbelow, hslot]

end Memory

end OpcodeConformance
