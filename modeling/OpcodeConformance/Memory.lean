import OpcodeConformance.Bytes
import Std.Data.TreeMap

namespace OpcodeConformance

/-- Bytes without a cell have never been written, and are zero. -/
structure Memory where
  size : Nat
  cells : Std.TreeMap Nat UInt8

namespace Memory

def zeros (size : Nat) : Memory := ⟨size, ∅⟩

def byte (m : Memory) (i : Nat) : UInt8 := m.cells.getD i 0

def slice (m : Memory) (start len : Nat) : Bytes := (List.range' start len).map m.byte

/-- The memory with `bs` written from `start` on, whether it is in range or not. -/
def overlay (m : Memory) (start : Nat) : Bytes → Memory
  | [] => m
  | b :: bs => overlay ⟨m.size, m.cells.insert start b⟩ (start + 1) bs

def read? (m : Memory) (start len : Nat) : Option Bytes :=
  if start + len ≤ m.size then some (m.slice start len) else none

def write? (m : Memory) (start : Nat) (bs : Bytes) : Option Memory :=
  if start + bs.length ≤ m.size then some (m.overlay start bs) else none

def resize (m : Memory) (size : Nat) : Memory := ⟨size, m.cells⟩

@[simp] theorem size_overlay (m : Memory) (start : Nat) (bs : Bytes) :
    (m.overlay start bs).size = m.size := by
  induction bs generalizing m start with
  | nil => rfl
  | cons b bs ih => simp [overlay, ih]

@[simp] theorem byte_zeros (size i : Nat) : (zeros size).byte i = 0 := by
  simp [zeros, byte]

@[simp] theorem byte_resize (m : Memory) (size i : Nat) : (m.resize size).byte i = m.byte i := rfl

@[simp] theorem length_slice (m : Memory) (start len : Nat) : (m.slice start len).length = len := by
  simp [slice]

/-- A byte behind a write is the one written there, or the old one outside the range. -/
theorem byte_overlay (m : Memory) (start : Nat) (bs : Bytes) (i : Nat) :
    (m.overlay start bs).byte i =
      if start ≤ i ∧ i < start + bs.length then bs.getD (i - start) 0 else m.byte i := by
  induction bs generalizing m start with
  | nil =>
    have h : ¬(start ≤ i ∧ i < start) := by omega
    exact (if_neg h).symm
  | cons b bs ih =>
    rw [overlay, ih, byte, Std.TreeMap.getD_insert, List.length_cons]
    by_cases h : i = start
    · subst h
      rw [if_neg (by omega), if_pos (Nat.compare_eq_eq.2 rfl), if_pos (by omega), Nat.sub_self]
      rfl
    · have hc : ¬compare start i = .eq := fun e => h (Nat.compare_eq_eq.1 e).symm
      rw [if_neg hc]
      by_cases h' : start + 1 ≤ i ∧ i < start + 1 + bs.length
      · have e : i - start = (i - (start + 1)) + 1 := by omega
        rw [if_pos h', if_pos (by omega), e]
        rfl
      · rw [if_neg h', if_neg (by omega)]
        rfl

end Memory

end OpcodeConformance
