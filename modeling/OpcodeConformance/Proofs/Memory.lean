import Mathlib.Data.List.GetD
import OpcodeConformance.Memory
import OpcodeConformance.Proofs.Bytes

namespace OpcodeConformance.Memory

theorem slice_add (m : Memory) (start v w : Nat) :
    m.slice start (v + w) = m.slice start v ++ m.slice (start + v) w := by
  rw [slice, slice, slice, ← List.map_append]
  congr 1
  simp

theorem slice_congr {m n : Memory} {start len : Nat}
    (h : ∀ i, start ≤ i → i < start + len → m.byte i = n.byte i) :
    m.slice start len = n.slice start len := by
  apply List.map_congr_left
  intro i hi
  obtain ⟨hle, hlt⟩ := List.mem_range'_1.mp hi
  exact h i hle hlt

theorem byte_overlay_of_not_mem {m : Memory} {start i : Nat} {bs : Bytes}
    (h : i < start ∨ start + bs.length ≤ i) : (m.overlay start bs).byte i = m.byte i := by
  rw [byte_overlay, if_neg (by omega)]

theorem byte_overlay_singleton (m : Memory) (start : Nat) (b : UInt8) (i : Nat) :
    (m.overlay start [b]).byte i = if i = start then b else m.byte i := by
  rw [byte_overlay]
  by_cases h : i = start
  · subst h
    rw [if_pos (by simp), if_pos rfl, Nat.sub_self]
    rfl
  · rw [if_neg (by simp; omega), if_neg h]

theorem slice_overlay_of_disjoint {m : Memory} {start len target : Nat} {bs : Bytes}
    (h : start + len ≤ target ∨ target + bs.length ≤ start) :
    (m.overlay target bs).slice start len = m.slice start len :=
  slice_congr fun i hle hlt => byte_overlay_of_not_mem (by omega)

theorem slice_overlay_self (m : Memory) (start : Nat) (bs : Bytes) :
    (m.overlay start bs).slice start bs.length = bs := by
  apply List.ext_getElem
  · rw [length_slice]
  · intro i hi hbs
    simp only [slice, List.getElem_map, List.getElem_range', byte_overlay]
    rw [if_pos (by omega), Nat.one_mul, Nat.add_sub_cancel_left, List.getD_eq_getElem _ _ hbs]

structure AgreeOutside (m n : Memory) (start len : Nat) : Prop where
  size : m.size = n.size
  byte : ∀ a, a < start ∨ start + len ≤ a → m.byte a = n.byte a

theorem AgreeOutside.refl (m : Memory) (start len : Nat) : m.AgreeOutside m start len :=
  ⟨rfl, fun _ _ => rfl⟩

theorem AgreeOutside.trans {m n o : Memory} {start len : Nat} (h : m.AgreeOutside n start len)
    (h' : n.AgreeOutside o start len) : m.AgreeOutside o start len where
  size := h.size.trans h'.size
  byte a ha := (h.byte a ha).trans (h'.byte a ha)

theorem AgreeOutside.mono {m n : Memory} {start len len' : Nat} (h : m.AgreeOutside n start len)
    (hlen : len ≤ len') : m.AgreeOutside n start len' where
  size := h.size
  byte a ha := h.byte a (by omega)

theorem agreeOutside_overlay (m : Memory) {start len target : Nat} {bs : Bytes}
    (hstart : start ≤ target) (hend : target + bs.length ≤ start + len) :
    (m.overlay target bs).AgreeOutside m start len where
  size := size_overlay m target bs
  byte _ ha := byte_overlay_of_not_mem (by omega)

theorem overlay_append (m : Memory) (start : Nat) (bs cs : Bytes) :
    m.overlay start (bs ++ cs) = (m.overlay start bs).overlay (start + bs.length) cs := by
  induction bs generalizing m start with
  | nil => rfl
  | cons b bs ih =>
    rw [List.cons_append, overlay, overlay, ih, List.length_cons, Nat.add_assoc, Nat.add_comm 1]

theorem read?_of_le {m : Memory} {start len : Nat} (h : start + len ≤ m.size) :
    m.read? start len = some (m.slice start len) := if_pos h

theorem write?_of_le {m : Memory} {start : Nat} {bs : Bytes} (h : start + bs.length ≤ m.size) :
    m.write? start bs = some (m.overlay start bs) := if_pos h

theorem littleValue_slice (m : Memory) {start v w len : Nat} (h : v + w ≤ len) :
    Bytes.littleValue (m.slice (start + v) w) =
      Bytes.littleValue (m.slice start len) / 256 ^ v % 256 ^ w := by
  obtain ⟨rest, rfl⟩ := Nat.exists_eq_add_of_le h
  -- what is in front is divided away, and what is behind is cut off
  have hfront := Bytes.littleValue_append_div (m.slice start v) (m.slice (start + v) (w + rest))
  have hback := Bytes.littleValue_append_mod (m.slice (start + v) w)
    (m.slice (start + v + w) rest)
  rw [← slice_add, length_slice, ← Nat.add_assoc] at hfront
  rw [← slice_add, length_slice] at hback
  rw [hfront, hback]

end OpcodeConformance.Memory
