import Mathlib.Data.Nat.Digits.Defs
import OpcodeConformance.Address
import OpcodeConformance.Proofs.Bytes
import OpcodeConformance.Proofs.Results

namespace OpcodeConformance

namespace Bytes

theorem forall_byte {P : UInt8 → Prop} (h : ∀ n < 256, P (UInt8.ofNat n)) (b : UInt8) : P b := by
  have hb := h b.toNat b.toNat_lt
  rwa [UInt8.ofNat_toNat] at hb

theorem forall_ascii {P : Char → Prop} (h : ∀ n < 128, P (Char.ofNat n)) {c : Char}
    (hc : c.toNat < 128) : P c := by
  have hn := h c.toNat hc
  rwa [Char.ofNat_toNat] at hn

theorem text?_ofChars (cs : List Char) : text? (ofChars cs) = some (String.ofList cs) := by
  have hbytes : (⟨(ofChars cs).toArray⟩ : ByteArray) = cs.utf8Encode :=
    ByteArray.ext List.data_toByteArray.symm
  have hvalid : cs.utf8Encode.IsValidUTF8 := ByteArray.isValidUTF8_utf8Encode
  rw [text?, hbytes, String.fromUTF8?, dif_pos hvalid]
  exact congrArg some (String.toByteArray_inj.mp String.toByteArray_ofList.symm)

@[simp] theorem ofChars_nil : ofChars [] = [] := rfl

@[simp] theorem ofChars_append (cs ds : List Char) :
    ofChars (cs ++ ds) = ofChars cs ++ ofChars ds := List.flatMap_append

theorem ofChars_cons (c : Char) (cs : List Char) :
    ofChars (c :: cs) = String.utf8EncodeChar c ++ ofChars cs := List.flatMap_cons

theorem utf8EncodeChar_of_lt {c : Char} (h : c.toNat < 128) :
    String.utf8EncodeChar c = [UInt8.ofNat c.toNat] := by
  have hle : c.val.toNat ≤ 0x7f := Nat.le_of_lt_succ h
  rw [String.utf8EncodeChar, if_pos hle]
  rfl

theorem ofChars_of_lt {cs : List Char} (h : ∀ c ∈ cs, c.toNat < 128) :
    ofChars cs = cs.map fun c => UInt8.ofNat c.toNat := by
  induction cs with
  | nil => rfl
  | cons c cs ih =>
    rw [ofChars_cons, utf8EncodeChar_of_lt (h c (.head _)), ih fun d hd => h d (.tail _ hd)]
    rfl

/-- No byte of a longer character is an ASCII character. -/
theorem le_of_mem_utf8EncodeChar {c : Char} (h : 128 ≤ c.toNat) {b : UInt8}
    (hb : b ∈ String.utf8EncodeChar c) : 128 ≤ b.toNat := by
  have hle : ¬c.val.toNat ≤ 0x7f := by
    change ¬c.toNat ≤ 0x7f
    omega
  rw [String.utf8EncodeChar, if_neg hle] at hb
  split at hb <;> [skip; split at hb]
  all_goals
    simp only [List.mem_cons, List.not_mem_nil, or_false] at hb
    rcases hb with rfl | rfl | rfl | rfl <;> rw [UInt8.toNat_ofNat'] <;> omega

end Bytes

theorem Text.trim_of_forall {cs : List Char} (h : ∀ c ∈ cs, isBlank c = false) : trim cs = cs := by
  have hdrop {ds : List Char} (hds : ∀ c ∈ ds, isBlank c = false) : ds.dropWhile isBlank = ds := by
    cases ds with
    | nil => rfl
    | cons c ds => rw [List.dropWhile_cons, hds c (.head _), if_neg Bool.false_ne_true]
  rw [trim, hdrop h, hdrop fun c hc => h c (List.mem_reverse.mp hc), List.reverse_reverse]

namespace Hex

def digitNumber (c : Char) : Nat :=
  if c.isDigit then c.toNat - 48 else if c.isLower then c.toNat - 87 else c.toNat - 55

/-- The number that a text spells. -/
def number (s : String) : Nat := Nat.ofDigits 16 ((digits s).map digitNumber).reverse

def byteNumber (b : UInt8) : Nat := ((digitValue? b).getD 0).toNat

theorem digitValue?_lt {b v : UInt8} (h : digitValue? b = some v) : v.toNat < 16 := by
  have hall : ∀ b, (digitValue? b).all (·.toNat < 16) = true := by
    apply Bytes.forall_byte
    decide +kernel
  have hb := hall b
  rw [h, Option.all_some] at hb
  exact of_decide_eq_true hb

theorem lt_of_digitValue? (b : UInt8) : (digitValue? b).isSome → b.toNat < 128 := by
  revert b
  apply Bytes.forall_byte
  decide +kernel

theorem byteNumber_ofNat {c : Char} (hc : c.toNat < 128)
    (h : (digitValue? (UInt8.ofNat c.toNat)).isSome) :
    byteNumber (UInt8.ofNat c.toNat) = digitNumber c := by
  revert h
  apply Bytes.forall_ascii _ hc
  decide +kernel

theorem digitValue_eq_ok {position : Nat} {b v : UInt8} (h : digitValue position b = .ok v) :
    digitValue? b = some v := by
  unfold digitValue at h
  split at h
  · rename_i w hw
    cases h
    exact hw
  · cases h

theorem decodePairs_cons {position : Nat} {high low : UInt8} {ds bs : Bytes}
    (h : decodePairs position (high :: low :: ds) = .ok bs) :
    ∃ x y rest, digitValue? high = some x ∧ digitValue? low = some y ∧
      decodePairs (position + 2) ds = .ok rest ∧ bs = (x * 16 + y) :: rest := by
  rw [decodePairs] at h
  obtain ⟨x, hx, h⟩ := Results.bind_eq_ok h
  obtain ⟨y, hy, h⟩ := Results.bind_eq_ok h
  obtain ⟨rest, hrest, h⟩ := Results.bind_eq_ok h
  cases h
  exact ⟨x, y, rest, digitValue_eq_ok hx, digitValue_eq_ok hy, hrest, rfl⟩

/-- Decoded digits are all digits, two for every byte, and the bytes have their number. -/
theorem decodePairs_eq_ok {position : Nat} {ds bs : Bytes} (h : decodePairs position ds = .ok bs) :
    ds.length = 2 * bs.length ∧ (∀ d ∈ ds, (digitValue? d).isSome) ∧
      Bytes.bigValue bs = Nat.ofDigits 16 (ds.map byteNumber).reverse := by
  induction position, ds using decodePairs.induct generalizing bs with
  | case1 position high low ds ih =>
    obtain ⟨x, y, rest, hx, hy, hrest, rfl⟩ := decodePairs_cons h
    obtain ⟨hlength, hdigits, hvalue⟩ := ih hrest
    have hbyte : (x * 16 + y).toNat = x.toNat * 16 + y.toNat := by
      have hx' := digitValue?_lt hx
      have hy' := digitValue?_lt hy
      rw [UInt8.toNat_add, UInt8.toNat_mul]
      change (x.toNat * 16 % 256 + y.toNat) % 256 = _
      omega
    refine ⟨by simp [hlength, Nat.mul_succ], ?_, ?_⟩
    · simp only [List.mem_cons]
      rintro d (rfl | rfl | hd)
      · simp [hx]
      · simp [hy]
      · exact hdigits d hd
    -- the first pair counts most, as much as there are pairs behind it
    · have hhigh : byteNumber high = x.toNat := by simp [byteNumber, hx]
      have hlow : byteNumber low = y.toNat := by simp [byteNumber, hy]
      have hpow : 256 ^ rest.length = 16 ^ ds.length := by
        rw [hlength, Nat.pow_mul]
      rw [← List.singleton_append, Bytes.bigValue_append, hvalue, hpow]
      simp only [List.map_cons, List.reverse_cons, List.append_assoc, Nat.ofDigits_append,
        List.length_reverse, List.length_map, hhigh, hlow]
      simp only [Bytes.bigValue, List.reverse_singleton, Bytes.littleValue, hbyte,
        Nat.ofDigits_cons, Nat.ofDigits_nil, List.length_singleton]
      ring
  | case2 position d => cases h
  | case3 position =>
    cases h
    exact ⟨rfl, by simp, rfl⟩

/-- A longer character has a byte that is no digit. -/
theorem lt_of_forall_digit {c : Char}
    (h : ∀ b ∈ String.utf8EncodeChar c, (digitValue? b).isSome) : c.toNat < 128 := by
  by_contra hge
  obtain ⟨b, hb⟩ := List.exists_mem_of_ne_nil _ (String.utf8EncodeChar_ne_nil (c := c))
  have hlt := lt_of_digitValue? b (h b hb)
  have hle := Bytes.le_of_mem_utf8EncodeChar (Nat.le_of_not_lt hge) hb
  omega

/-- Characters whose UTF-8 form has nothing but digits are digits. -/
theorem map_byteNumber_ofChars {cs : List Char}
    (h : ∀ b ∈ Bytes.ofChars cs, (digitValue? b).isSome) :
    (Bytes.ofChars cs).map byteNumber = cs.map digitNumber := by
  induction cs with
  | nil => rfl
  | cons c cs ih =>
    rw [Bytes.ofChars_cons] at h ⊢
    have hc := lt_of_forall_digit fun b hb => h b (List.mem_append_left _ hb)
    have hrest := ih fun b hb => h b (List.mem_append_right _ hb)
    rw [Bytes.utf8EncodeChar_of_lt hc] at h ⊢
    rw [List.map_append, hrest, List.map_singleton, byteNumber_ofNat hc (h _ (by simp))]
    rfl

theorem decodeEven_eq_ok {ds bs : Bytes} (h : decodeEven ds = .ok bs) :
    decodePairs 0 ds = .ok bs := by
  unfold decodeEven at h
  split at h
  · cases h
  · exact h

/-- Decoding keeps the number that a text spells. -/
theorem bigValue_decode {s : String} {bs : Bytes} (h : decode s = .ok bs) :
    Bytes.bigValue bs = number s := by
  obtain ⟨-, hdigits, hvalue⟩ := decodePairs_eq_ok (decodeEven_eq_ok h)
  split at hdigits
  · rename_i hodd
    -- a zero stands in front of an odd number of digits
    rw [if_pos hodd] at hvalue
    have hzero : byteNumber 48 = 0 := rfl
    rw [hvalue, List.map_cons, hzero, List.reverse_cons, Nat.ofDigits_append,
      map_byteNumber_ofChars fun b hb => hdigits b (.tail _ hb)]
    rfl
  · rename_i heven
    rw [if_neg heven] at hvalue
    rw [hvalue, map_byteNumber_ofChars hdigits]
    rfl

def alphabet : List Char := "0123456789abcdefx".toList

theorem digitChar_of_lt {v : UInt8} (h : v.toNat < 16) :
    digitChar v ∈ alphabet ∧ (digitChar v).toNat < 128 ∧
      digitValue? (UInt8.ofNat (digitChar v).toNat) = some v := by
  have hall : ∀ n < 16, digitChar (UInt8.ofNat n) ∈ alphabet ∧
      (digitChar (UInt8.ofNat n)).toNat < 128 ∧
      digitValue? (UInt8.ofNat (digitChar (UInt8.ofNat n)).toNat) = some (UInt8.ofNat n) := by
    decide
  have hv := hall v.toNat h
  rwa [UInt8.ofNat_toNat] at hv

theorem halves_lt (b : UInt8) : (b / 16).toNat < 16 ∧ (b % 16).toNat < 16 := by
  have hb := b.toNat_lt
  rw [UInt8.toNat_div, UInt8.toNat_mod]
  change b.toNat / 16 < 16 ∧ b.toNat % 16 < 16
  omega

theorem ofChars_pair (b : UInt8) :
    Bytes.ofChars (pair b) =
      [UInt8.ofNat (digitChar (b / 16)).toNat, UInt8.ofNat (digitChar (b % 16)).toNat] := by
  obtain ⟨-, hhigh, -⟩ := digitChar_of_lt (halves_lt b).1
  obtain ⟨-, hlow, -⟩ := digitChar_of_lt (halves_lt b).2
  rw [pair, Bytes.ofChars_cons, Bytes.ofChars_cons, Bytes.utf8EncodeChar_of_lt hhigh,
    Bytes.utf8EncodeChar_of_lt hlow]
  rfl

theorem decodePairs_pairs (position : Nat) (bs : Bytes) :
    decodePairs position (Bytes.ofChars (bs.flatMap pair)) = .ok bs := by
  induction bs generalizing position with
  | nil => rfl
  | cons b bs ih =>
    obtain ⟨-, -, hhigh⟩ := digitChar_of_lt (halves_lt b).1
    obtain ⟨-, -, hlow⟩ := digitChar_of_lt (halves_lt b).2
    have hbyte : b / 16 * 16 + b % 16 = b := by
      apply UInt8.toNat_inj.mp
      have hb := b.toNat_lt
      rw [UInt8.toNat_add, UInt8.toNat_mul, UInt8.toNat_div, UInt8.toNat_mod]
      change (b.toNat / 16 * 16 % 256 + b.toNat % 16) % 256 = b.toNat
      omega
    rw [List.flatMap_cons, Bytes.ofChars_append, ofChars_pair]
    simp only [List.cons_append, List.nil_append, decodePairs, digitValue, hhigh, hlow, ih]
    change Except.ok ((b / 16 * 16 + b % 16) :: bs) = _
    rw [hbyte]

theorem length_pairs (bs : Bytes) : (Bytes.ofChars (bs.flatMap pair)).length = 2 * bs.length := by
  induction bs with
  | nil => rfl
  | cons b bs ih =>
    rw [List.flatMap_cons, Bytes.ofChars_append, List.length_append, ih, ofChars_pair,
      List.length_cons]
    simp only [List.length_cons, List.length_nil]
    omega

theorem decodeEven_pairs (bs : Bytes) :
    decodeEven (Bytes.ofChars (bs.flatMap pair)) = .ok bs := by
  rw [decodeEven, length_pairs, if_neg (by omega), decodePairs_pairs]

theorem mem_alphabet_of_mem_encode {bs : Bytes} {c : Char} (h : c ∈ (encode bs).toList) :
    c ∈ alphabet := by
  rw [encode, String.toList_ofList, List.mem_cons, List.mem_cons, List.mem_flatMap] at h
  obtain rfl | rfl | ⟨b, -, hc⟩ := h
  · decide
  · decide
  · simp only [pair, List.mem_cons, List.not_mem_nil, or_false] at hc
    obtain rfl | rfl := hc
    · exact (digitChar_of_lt (halves_lt b).1).1
    · exact (digitChar_of_lt (halves_lt b).2).1

theorem digits_encode (bs : Bytes) : digits (encode bs) = bs.flatMap pair := by
  have hblank : alphabet.all (!Text.isBlank ·) = true := by decide
  have htrim : Text.trim (encode bs).toList = (encode bs).toList := by
    apply Text.trim_of_forall
    intro c hc
    simpa using List.all_eq_true.mp hblank c (mem_alphabet_of_mem_encode hc)
  rw [digits, htrim, encode, String.toList_ofList]
  rfl

end Hex

theorem Address.ofHex_toHex (a : Address) : Address.ofHex a.toHex = .ok a := by
  rw [ofHex, toHex, Hex.digits_encode, Hex.decodeEven_pairs]
  change ofBytes a.bytes = _
  rw [ofBytes, dif_pos a.length_bytes]

end OpcodeConformance
