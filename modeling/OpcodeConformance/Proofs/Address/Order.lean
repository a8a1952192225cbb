import OpcodeConformance.Proofs.Hex
import OpcodeConformance.Proofs.Text

namespace OpcodeConformance

namespace Bytes

theorem bigValue_cons (b : UInt8) (bs : Bytes) :
    bigValue (b :: bs) = b.toNat * 256 ^ bs.length + bigValue bs := by
  have hb : bigValue [b] = b.toNat := rfl
  rw [← List.singleton_append, bigValue_append, hb]

theorem bigValue_lt (bs : Bytes) : bigValue bs < 256 ^ bs.length := by
  have h := littleValue_lt bs.reverse
  rwa [List.length_reverse] at h

/-- The digit at the greatest place decides, unless it is the same in both numbers. -/
theorem place_lt_iff {x y m n place : Nat} (hm : m < place) (hn : n < place) :
    x * place + m < y * place + n ↔ x < y ∨ x = y ∧ m < n := by
  obtain hlt | rfl | hgt := Nat.lt_trichotomy x y
  · have hplace : (x + 1) * place ≤ y * place := Nat.mul_le_mul_right _ hlt
    rw [Nat.add_mul, Nat.one_mul] at hplace
    exact ⟨fun _ => .inl hlt, fun _ => by omega⟩
  · simp
  · have hplace : (y + 1) * place ≤ x * place := Nat.mul_le_mul_right _ hgt
    rw [Nat.add_mul, Nat.one_mul] at hplace
    omega

/-- Byte strings of one length stand in the order of their numbers. -/
theorem lt_iff_bigValue {bs cs : Bytes} (h : bs.length = cs.length) :
    bs < cs ↔ bigValue bs < bigValue cs := by
  induction bs generalizing cs with
  | nil =>
    obtain rfl := List.length_eq_zero_iff.mp h.symm
    simp
  | cons b bs ih =>
    cases cs with
    | nil => cases h
    | cons c cs =>
      have hlength : bs.length = cs.length := Nat.succ.inj h
      have hbs : bigValue bs < 256 ^ cs.length := hlength ▸ bigValue_lt bs
      rw [List.cons_lt_cons_iff, bigValue_cons, bigValue_cons, hlength,
        place_lt_iff hbs (bigValue_lt cs), ih hlength, UInt8.lt_iff_toNat_lt, UInt8.toNat_inj]

end Bytes

namespace Hex

theorem digitChar_lt_iff {v w : UInt8} (hv : v.toNat < 16) (hw : w.toNat < 16) :
    digitChar v < digitChar w ↔ v < w := by
  have hall : ∀ m < 16, ∀ n < 16,
      (digitChar (UInt8.ofNat m) < digitChar (UInt8.ofNat n) ↔ UInt8.ofNat m < UInt8.ofNat n) := by
    decide +kernel
  have hvw := hall v.toNat hv w.toNat hw
  rwa [UInt8.ofNat_toNat, UInt8.ofNat_toNat] at hvw

theorem digitChar_inj {v w : UInt8} (hv : v.toNat < 16) (hw : w.toNat < 16) :
    digitChar v = digitChar w ↔ v = w := by
  constructor
  · intro h
    obtain ⟨-, -, hvalue⟩ := digitChar_of_lt hv
    obtain ⟨-, -, hvalue'⟩ := digitChar_of_lt hw
    rw [h, hvalue'] at hvalue
    exact (Option.some.inj hvalue).symm
  · exact congrArg digitChar

/-- The high half of a byte comes first, so pairs of digits stand in the order of their bytes. -/
theorem pair_append_lt_iff (b c : UInt8) (cs ds : List Char) :
    pair b ++ cs < pair c ++ ds ↔ b < c ∨ b = c ∧ cs < ds := by
  obtain ⟨hbhigh, hblow⟩ := halves_lt b
  obtain ⟨hchigh, hclow⟩ := halves_lt c
  have hhigh (b : UInt8) : (b / 16).toNat = b.toNat / 16 := UInt8.toNat_div b 16
  have hlow (b : UInt8) : (b % 16).toNat = b.toNat % 16 := UInt8.toNat_mod b 16
  simp only [pair, List.cons_append, List.nil_append, List.cons_lt_cons_iff,
    digitChar_lt_iff hbhigh hchigh, digitChar_inj hbhigh hchigh, digitChar_lt_iff hblow hclow,
    digitChar_inj hblow hclow]
  simp only [UInt8.lt_iff_toNat_lt, ← UInt8.toNat_inj, hhigh, hlow]
  by_cases hcs : cs < ds
  · simp only [hcs, and_true]
    omega
  · simp only [hcs, and_false, or_false]
    omega

theorem flatMap_pair_lt_iff {bs cs : Bytes} : bs.flatMap pair < cs.flatMap pair ↔ bs < cs := by
  induction bs generalizing cs with
  | nil =>
    cases cs with
    | nil => simp
    | cons c cs => exact ⟨fun _ => List.nil_lt_cons _ _, fun _ => List.nil_lt_cons _ _⟩
  | cons b bs ih =>
    cases cs with
    | nil => exact ⟨fun h => absurd h (List.not_lt_nil _), fun h => absurd h (List.not_lt_nil _)⟩
    | cons c cs =>
      rw [List.flatMap_cons, List.flatMap_cons, pair_append_lt_iff, ih, List.cons_lt_cons_iff]

theorem encode_lt_iff {bs cs : Bytes} : encode bs < encode cs ↔ bs < cs := by
  rw [← flatMap_pair_lt_iff, String.lt_iff, encode, encode, String.toList_ofList,
    String.toList_ofList]
  simp only [List.cons_lt_cons_iff, Char.lt_irrefl, false_or, true_and]

end Hex

namespace Address

variable {a b : Address}

theorem lt_iff_bigValue : a < b ↔ Bytes.bigValue a.bytes < Bytes.bigValue b.bytes :=
  Bytes.lt_iff_bigValue (a.length_bytes.trans b.length_bytes.symm)

theorem toHex_lt_iff : a.toHex < b.toHex ↔ a < b := Hex.encode_lt_iff

theorem toHex_injective : Function.Injective toHex := by
  intro a b h
  have hread := congrArg ofHex h
  rw [ofHex_toHex, ofHex_toHex] at hread
  exact Except.ok.inj hread

theorem lt_irrefl (a : Address) : ¬a < a := List.lt_irrefl a.bytes

end Address

end OpcodeConformance
