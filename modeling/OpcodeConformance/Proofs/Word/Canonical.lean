import OpcodeConformance.Proofs.Contract.Runs
import OpcodeConformance.Proofs.Word

namespace OpcodeConformance.Word

variable {s s' : String} {len : Nat} {word word' : Bytes}

theorem memoryOrder_memoryOrder (bs : Bytes) : memoryOrder (memoryOrder bs) = bs :=
  List.reverse_reverse bs

theorem littleValue_memoryOrder (bs : Bytes) :
    Bytes.littleValue (memoryOrder bs) = Bytes.bigValue bs := rfl

/-- How a text becomes a word, by what is decoded from it. -/
theorem ofHex_of_decodeHex {bs : Bytes} (h : decodeHex s = .ok bs) :
    ofHex s len =
      if bs.length ≤ len then .ok (List.replicate (len - bs.length) 0 ++ bs)
      else .error (.valueTooLarge bs.length len) := by
  unfold ofHex
  rw [h]
  rfl

theorem ofHex_of_error {e : EncodingError} (h : decodeHex s = .error e) :
    ofHex s len = .error (.hex e.message) := by
  unfold ofHex
  rw [h]
  rfl

theorem ofHex_eq_hex_iff {reason : String} :
    ofHex s len = .error (.hex reason) ↔ ∃ e, decodeHex s = .error e ∧ e.message = reason := by
  cases h : decodeHex s with
  | error e => simp [ofHex_of_error h]
  | ok bs =>
    rw [ofHex_of_decodeHex h]
    split <;> simp

theorem ofHex_eq_valueTooLarge_iff {actual greatest : Nat} :
    ofHex s len = .error (.valueTooLarge actual greatest) ↔
      greatest = len ∧ len < actual ∧ ∃ bs, decodeHex s = .ok bs ∧ bs.length = actual := by
  cases h : decodeHex s with
  | error e => simp [ofHex_of_error h]
  | ok bs =>
    rw [ofHex_of_decodeHex h]
    by_cases hle : bs.length ≤ len
    · rw [if_pos hle]
      simp only [reduceCtorEq, Except.ok.injEq, exists_eq_left', false_iff]
      omega
    · rw [if_neg hle]
      simp only [Except.error.injEq, HarnessError.valueTooLarge.injEq, Except.ok.injEq,
        exists_eq_left']
      omega

theorem exists_ofHex {bs : Bytes} (h : decodeHex s = .ok bs) (hle : bs.length ≤ len) :
    ∃ word, ofHex s len = .ok word :=
  ⟨_, (ofHex_of_decodeHex h).trans (if_pos hle)⟩

theorem ofHex_eq_iff (h : ofHex s len = .ok word) (h' : ofHex s' len = .ok word') :
    word = word' ↔ Hex.number s = Hex.number s' := by
  obtain ⟨hlength, hnumber⟩ := ofHex_eq_ok h
  obtain ⟨hlength', hnumber'⟩ := ofHex_eq_ok h'
  rw [Bytes.eq_iff_bigValue (hlength.trans hlength'.symm), hnumber, hnumber']

section Flat

variable {κ ω : Type} {m : Machine κ ω} {view : ω → Option FlatMemory} {f : FlatMemory} {t : ω}

theorem read_of_le (hm : m.IsFlat view) (ht : view t = some f) {start len : Nat}
    (h : start + len ≤ f.size) : (read m start len t).1 = .ok (memoryOrder (f.slice start len)) := by
  obtain ⟨hread, -⟩ := read_of_view hm ht start len
  rw [FlatMemory.read?_of_le h, Option.map_some] at hread
  cases hresult : (read m start len t).1 with
  | error e =>
    rw [hresult] at hread
    cases hread
  | ok bs =>
    rw [hresult] at hread
    exact congrArg Except.ok (Option.some.inj hread)

theorem write_of_le (hm : m.IsFlat view) (ht : view t = some f) {offset : Nat}
    (h : offset + word.length ≤ f.size) :
    ∃ u, write m offset word t = (.ok (), u) ∧
      view u = some (f.overlay offset (memoryOrder word)) := by
  rw [← length_memoryOrder] at h
  obtain ⟨hwrite, hview⟩ := hm.write ht offset (memoryOrder word)
  rw [FlatMemory.write?_of_le (w := (offset, memoryOrder word)) h] at hwrite hview
  rcases hrun : m.write offset (memoryOrder word) t with ⟨_ | x, u⟩
  · rw [hrun] at hwrite
    cases hwrite
  · rw [hrun] at hview
    exact ⟨u, Action.mapError_of_ok hrun, hview⟩

end Flat

theorem slice_overlay_memoryOrder (f : FlatMemory) (offset : Nat) (word : Bytes) :
    (f.overlay offset (memoryOrder word)).slice offset word.length = memoryOrder word := by
  have hplaced : (f.placed ([] ++ (offset, memoryOrder word) :: [])).slice offset
      (memoryOrder word).length = memoryOrder word :=
    FlatMemory.slice_placed fun v hv => nomatch hv
  rwa [length_memoryOrder] at hplaced

/-- A text is no word because it is not decoded, or because it is decoded to too many bytes, zeros
in front included; otherwise it is the word of that length for its number. Two texts are one word if
and only if they spell one number. Where there is room, a flat memory takes the word with the least
significant byte first, gives it back, and is otherwise as before. -/
theorem ofHex_canonical (s : String) (len : Nat) :
    (∀ reason, ofHex s len = .error (.hex reason) ↔
      ∃ e, decodeHex s = .error e ∧ e.message = reason) ∧
    (∀ actual greatest, ofHex s len = .error (.valueTooLarge actual greatest) ↔
      greatest = len ∧ len < actual ∧ ∃ bs, decodeHex s = .ok bs ∧ bs.length = actual) ∧
    (∀ bs, decodeHex s = .ok bs → bs.length ≤ len → ∃ word, ofHex s len = .ok word ∧
      word.length = len ∧ Bytes.bigValue word = Hex.number s) ∧
    (∀ s' word word', ofHex s len = .ok word → ofHex s' len = .ok word' →
      (word = word' ↔ Hex.number s = Hex.number s')) ∧
    ∀ word, ofHex s len = .ok word →
      ∀ (κ ω : Type) (m : Machine κ ω) (view : ω → Option FlatMemory), m.IsFlat view →
      ∀ t f offset, view t = some f → offset + len ≤ f.size →
        ∃ u g, write m offset word t = (.ok (), u) ∧ view u = some g ∧
          (read m offset len u).1 = .ok word ∧ g.size = f.size ∧
          Bytes.littleValue (g.slice offset len) = Hex.number s ∧
          ∀ a, a < offset ∨ offset + len ≤ a → g.byte a = f.byte a := by
  refine ⟨fun _ => ofHex_eq_hex_iff, fun _ _ => ofHex_eq_valueTooLarge_iff, fun bs h hle => ?_,
    fun _ _ _ => ofHex_eq_iff, fun word h κ ω m view hm t f offset ht hfit => ?_⟩
  · obtain ⟨word, hword⟩ := exists_ofHex h hle
    exact ⟨word, hword, ofHex_eq_ok hword⟩
  · obtain ⟨rfl, hnumber⟩ := ofHex_eq_ok h
    obtain ⟨u, hwrite, hu⟩ := write_of_le hm ht hfit
    have hslice := slice_overlay_memoryOrder f offset word
    refine ⟨u, f.overlay offset (memoryOrder word), hwrite, hu, ?_, rfl, ?_, fun a ha => ?_⟩
    · rw [read_of_le hm hu hfit, hslice, memoryOrder_memoryOrder]
    · rw [hslice, littleValue_memoryOrder, hnumber]
    · apply FlatMemory.byte_overlay_of_not_covers (w := (offset, memoryOrder word))
      unfold FlatMemory.Covers
      rw [length_memoryOrder]
      omega

/-- A number with an odd count of digits is written into the last bytes of the meter's memory. -/
theorem ofHex_canonical_meter :
    let c := meterContract.moved [.receive ⟨.zero, [], 100⟩]
    ofHex " 0XaBc" 4 = .ok [0, 0, 0x0a, 0xbc] ∧
      ∃ d, write Machine.contract 65532 [0, 0, 0x0a, 0xbc] c = (.ok (), d) ∧
        (read Machine.contract 65532 4 d).1 = .ok [0, 0, 0x0a, 0xbc] := by
  intro c
  have hword : ofHex " 0XaBc" 4 = .ok [0, 0, 0x0a, 0xbc] := by decide +kernel
  have hsize : (Contract.view c).map FlatMemory.size = some 65536 := by decide +kernel
  obtain ⟨f, hf, hsize⟩ := Option.map_eq_some_iff.mp hsize
  obtain ⟨-, -, -, -, hmemory⟩ := ofHex_canonical " 0XaBc" 4
  obtain ⟨d, g, hwrite, -, hread, -⟩ := hmemory _ hword Binary Contract Machine.contract
    Contract.view isFlat_contract c f 65532 hf (by rw [hsize])
  exact ⟨hword, d, hwrite, hread⟩

end OpcodeConformance.Word
