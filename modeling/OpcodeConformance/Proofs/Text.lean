import Mathlib.Tactic.ByContra
import Mathlib.Tactic.SplitIfs
import OpcodeConformance.Bytes

namespace OpcodeConformance.Bytes

/-- The bytes of two characters differ before either ends, and there as the characters do, whatever
stands behind them. -/
theorem utf8EncodeChar_append_lt {c d : Char} (h : c < d) (bs bs' : Bytes) :
    String.utf8EncodeChar c ++ bs < String.utf8EncodeChar d ++ bs' := by
  have hlt : c.val.toNat < d.val.toNat := UInt32.lt_iff_toNat_lt.mp h
  have hlast : d.val.toNat < 0x110000 := by
    have := d.valid
    simp only [UInt32.isValidChar, Nat.isValidChar] at this
    omega
  -- six bits in every byte, the upper ones first
  have hdigits (n : Nat) : n / 4096 = n / 64 / 64 ∧ n / 262144 = n / 64 / 64 / 64 := by omega
  unfold String.utf8EncodeChar
  simp only [hdigits]
  split_ifs <;>
    simp only [List.cons_append, List.cons_lt_cons_iff, UInt8.lt_iff_toNat_lt, ← UInt8.toNat_inj,
      UInt8.toNat_ofNat', Nat.reducePow] <;>
    omega

theorem ofChars_lt {cs ds : List Char} (h : cs < ds) : ofChars cs < ofChars ds := by
  induction h with
  | @nil d ds =>
    obtain ⟨b, bs, hbs⟩ := List.exists_cons_of_ne_nil (String.utf8EncodeChar_ne_nil (c := d))
    change [] < String.utf8EncodeChar d ++ ofChars ds
    rw [hbs, List.cons_append]
    exact List.nil_lt_cons _ _
  | rel h => exact utf8EncodeChar_append_lt h _ _
  | cons _ ih => exact List.append_left_lt ih

theorem ofString_lt_iff {a b : String} : ofString a < ofString b ↔ a < b := by
  refine ⟨fun h => ?_, ofChars_lt⟩
  by_contra hab
  by_cases hba : b < a
  · exact List.lt_asymm h (ofChars_lt hba)
  · obtain rfl := String.le_antisymm hba hab
    exact List.lt_irrefl _ h

theorem ofString_le_iff {a b : String} : ofString a ≤ ofString b ↔ a ≤ b :=
  ofString_lt_iff.not

theorem pairwise_mergeSort_ofString (ss : List String) :
    (ss.mergeSort fun a b => decide (a ≤ b)).Pairwise fun a b => ofString a ≤ ofString b := by
  refine (List.pairwise_mergeSort ?_ ?_ ss).imp fun h => ofString_le_iff.mpr (of_decide_eq_true h)
  · intro a b c hab hbc
    exact decide_eq_true (String.le_trans (of_decide_eq_true hab) (of_decide_eq_true hbc))
  · intro a b
    simpa using String.le_total a b

end OpcodeConformance.Bytes
