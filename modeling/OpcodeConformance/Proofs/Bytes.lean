import Mathlib.Tactic.Ring
import OpcodeConformance.Bytes

namespace OpcodeConformance.Bytes

theorem littleValue_lt (bs : Bytes) : littleValue bs < 256 ^ bs.length := by
  induction bs with
  | nil => exact Nat.one_pos
  | cons b bs ih =>
    have hb := b.toNat_lt
    rw [littleValue, List.length_cons, Nat.pow_succ]
    omega

theorem littleValue_append (bs cs : Bytes) :
    littleValue (bs ++ cs) = littleValue bs + 256 ^ bs.length * littleValue cs := by
  induction bs with
  | nil => simp [littleValue]
  | cons b bs ih =>
    rw [List.cons_append, littleValue, littleValue, ih, List.length_cons, Nat.pow_succ]
    ring

theorem little_littleValue (bs : Bytes) : little bs.length (littleValue bs) = bs := by
  induction bs with
  | nil => rfl
  | cons b bs ih =>
    have hb := b.toNat_lt
    have hdiv : (b.toNat + 256 * littleValue bs) / 256 = littleValue bs := by omega
    rw [List.length_cons, littleValue, little, hdiv, ih]
    congr 1
    apply UInt8.toNat_inj.mp
    rw [UInt8.toNat_ofNat']
    omega

theorem littleValue_little (width n : Nat) : littleValue (little width n) = n % 256 ^ width := by
  induction width generalizing n with
  | zero => rw [Nat.pow_zero, Nat.mod_one, little, littleValue]
  | succ width ih =>
    have hb : (UInt8.ofNat n).toNat = n % 256 := UInt8.toNat_ofNat'
    rw [little, littleValue, ih, hb, Nat.pow_succ', Nat.mod_mul]

theorem little_add (v w n : Nat) : little (v + w) n = little v n ++ little w (n / 256 ^ v) := by
  induction v generalizing n with
  | zero => simp [little]
  | succ v ih =>
    rw [Nat.succ_add_eq_add_succ, Nat.add_succ, little, little, ih, List.cons_append,
      Nat.div_div_eq_div_mul, Nat.pow_succ']

theorem little_mod (width n : Nat) : little width (n % 256 ^ width) = little width n := by
  have h := little_littleValue (little width n)
  rwa [length_little, littleValue_little] at h

theorem littleValue_append_div (bs cs : Bytes) :
    littleValue (bs ++ cs) / 256 ^ bs.length = littleValue cs := by
  rw [littleValue_append, Nat.add_mul_div_left _ _ (Nat.pow_pos (by decide)),
    Nat.div_eq_of_lt (littleValue_lt bs), Nat.zero_add]

theorem littleValue_append_mod (bs cs : Bytes) :
    littleValue (bs ++ cs) % 256 ^ bs.length = littleValue bs := by
  rw [littleValue_append, Nat.add_mul_mod_self_left, Nat.mod_eq_of_lt (littleValue_lt bs)]

theorem eq_of_littleValue {bs cs : Bytes} (hlen : bs.length = cs.length)
    (h : littleValue bs = littleValue cs) : bs = cs := by
  rw [← little_littleValue bs, ← little_littleValue cs, hlen, h]

theorem eq_iff_bigValue {bs cs : Bytes} (hlen : bs.length = cs.length) :
    bs = cs ↔ bigValue bs = bigValue cs := by
  constructor
  · intro h
    rw [h]
  · intro h
    have hreverse := eq_of_littleValue (by simpa using hlen) h
    exact List.reverse_inj.mp hreverse

theorem bigValue_append (bs cs : Bytes) :
    bigValue (bs ++ cs) = bigValue bs * 256 ^ cs.length + bigValue cs := by
  rw [bigValue, List.reverse_append, littleValue_append, List.length_reverse, bigValue, bigValue]
  ring

theorem littleValue_replicate_zero (n : Nat) : littleValue (List.replicate n 0) = 0 := by
  induction n with
  | zero => rfl
  | succ n ih => rw [List.replicate_succ, littleValue, ih]; rfl

theorem little_zero (width : Nat) : little width 0 = List.replicate width 0 := by
  have h := little_littleValue (List.replicate width 0)
  rwa [List.length_replicate, littleValue_replicate_zero] at h

theorem bigValue_replicate_append (n : Nat) (bs : Bytes) :
    bigValue (List.replicate n 0 ++ bs) = bigValue bs := by
  rw [bigValue_append, bigValue, List.reverse_replicate, littleValue_replicate_zero, Nat.zero_mul,
    Nat.zero_add]

/-- What two numbers carry over their lowest `v` bytes when they are added. -/
def carry (v m n : Nat) : Nat := (m % 256 ^ v + n % 256 ^ v) / 256 ^ v

theorem carry_zero (m n : Nat) : carry 0 m n = 0 := by
  simp [carry, Nat.mod_one]

theorem carry_le (v m n : Nat) : carry v m n ≤ 1 := by
  have hpos : 0 < 256 ^ v := Nat.pow_pos (by decide)
  have hm := Nat.mod_lt m hpos
  have hn := Nat.mod_lt n hpos
  have hlt : carry v m n < 2 := Nat.div_lt_of_lt_mul (by omega)
  omega

theorem carry_add (v w m n : Nat) :
    carry (v + w) m n =
      (m / 256 ^ v % 256 ^ w + n / 256 ^ v % 256 ^ w + carry v m n) / 256 ^ w := by
  have hpos : 0 < 256 ^ v := Nat.pow_pos (by decide)
  have hsum : m % (256 ^ v * 256 ^ w) + n % (256 ^ v * 256 ^ w) =
      (m % 256 ^ v + n % 256 ^ v) +
        256 ^ v * (m / 256 ^ v % 256 ^ w + n / 256 ^ v % 256 ^ w) := by
    rw [Nat.mod_mul, Nat.mod_mul]
    ring
  -- the low bytes of both numbers leave the carry over them
  rw [carry, Nat.pow_add, hsum, ← Nat.div_div_eq_div_mul, Nat.add_mul_div_left _ _ hpos,
    Nat.add_comm, carry]

/-- The bytes of a sum behind the lowest `v` are those of a sum with carry. -/
theorem little_sum (v w m n : Nat) :
    little w ((m + n) / 256 ^ v) =
      little w (m / 256 ^ v % 256 ^ w + n / 256 ^ v % 256 ^ w + carry v m n) := by
  have hpos : 0 < 256 ^ v := Nat.pow_pos (by decide)
  have hsum : m + n =
      (m % 256 ^ v + n % 256 ^ v) + 256 ^ v * (m / 256 ^ v + n / 256 ^ v) := by
    have hm := Nat.mod_add_div m (256 ^ v)
    have hn := Nat.mod_add_div n (256 ^ v)
    rw [Nat.mul_add]
    omega
  have hdiv : (m + n) / 256 ^ v = carry v m n + (m / 256 ^ v + n / 256 ^ v) := by
    rw [hsum, Nat.add_mul_div_left _ _ hpos, carry]
  -- bytes above the lowest `w` do not matter
  rw [← little_mod, hdiv, ← little_mod w (_ + _)]
  congr 1
  rw [Nat.add_comm, Nat.add_mod, Nat.add_mod (m / 256 ^ v)]
  simp [Nat.add_mod]

end OpcodeConformance.Bytes
