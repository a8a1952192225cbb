import OpcodeConformance.Proofs.Action
import OpcodeConformance.Proofs.Memory

namespace OpcodeConformance

structure FlatMemory where
  size : Nat
  byte : Nat → UInt8

namespace FlatMemory

def slice (f : FlatMemory) (start len : Nat) : Bytes := (List.range' start len).map f.byte

def overlay (f : FlatMemory) (start : Nat) (bs : Bytes) : FlatMemory where
  size := f.size
  byte a := if start ≤ a ∧ a < start + bs.length then bs.getD (a - start) 0 else f.byte a

def placed (f : FlatMemory) (ws : List (Nat × Bytes)) : FlatMemory :=
  ws.foldl (fun f w => f.overlay w.1 w.2) f

def read? (f : FlatMemory) (start len : Nat) : Option Bytes :=
  if start + len ≤ f.size then some (f.slice start len) else none

def fetch (f : FlatMemory) (start len : Nat) : Except Fault Bytes :=
  if start + len ≤ f.size then .ok (f.slice start len)
  else .error (.memoryOutOfBounds start len f.size)

def write? (f : FlatMemory) (start : Nat) (bs : Bytes) : Option FlatMemory :=
  if start + bs.length ≤ f.size then some (f.overlay start bs) else none

def Covers (w : Nat × Bytes) (a : Nat) : Prop := w.1 ≤ a ∧ a < w.1 + w.2.length

instance (w : Nat × Bytes) (a : Nat) : Decidable (Covers w a) := inferInstanceAs (Decidable (_ ∧ _))

variable {f : FlatMemory} {w : Nat × Bytes} {ws earlier later : List (Nat × Bytes)} {a : Nat}

@[simp] theorem length_slice (f : FlatMemory) (start len : Nat) :
    (f.slice start len).length = len := by
  simp [slice]

theorem read?_of_le {start len : Nat} (h : start + len ≤ f.size) :
    f.read? start len = some (f.slice start len) := if_pos h

theorem read?_of_not_le {start len : Nat} (h : ¬start + len ≤ f.size) : f.read? start len = none :=
  if_neg h

theorem fetch_eq_ok_iff {start len : Nat} {bs : Bytes} :
    f.fetch start len = .ok bs ↔ start + len ≤ f.size ∧ f.slice start len = bs := by
  unfold fetch
  split <;> simp [*]

@[simp] theorem toOption_fetch (f : FlatMemory) (start len : Nat) :
    (f.fetch start len).toOption = f.read? start len := by
  unfold fetch read?
  split <;> rfl

theorem write?_of_le (h : w.1 + w.2.length ≤ f.size) :
    f.write? w.1 w.2 = some (f.overlay w.1 w.2) := if_pos h

@[simp] theorem size_overlay (f : FlatMemory) (start : Nat) (bs : Bytes) :
    (f.overlay start bs).size = f.size := rfl

theorem byte_overlay_of_covers (h : Covers w a) :
    w.2[a - w.1]? = some ((f.overlay w.1 w.2).byte a) := by
  have hlt : a - w.1 < w.2.length := by
    unfold Covers at h
    omega
  have hbyte : (f.overlay w.1 w.2).byte a = w.2.getD (a - w.1) 0 := if_pos h
  rw [hbyte, List.getD_eq_getElem _ _ hlt, List.getElem?_eq_getElem hlt]

theorem byte_overlay_of_not_covers (h : ¬Covers w a) : (f.overlay w.1 w.2).byte a = f.byte a :=
  if_neg h

@[simp] theorem placed_nil (f : FlatMemory) : f.placed [] = f := rfl

@[simp] theorem placed_cons (f : FlatMemory) (w : Nat × Bytes) (ws : List (Nat × Bytes)) :
    f.placed (w :: ws) = (f.overlay w.1 w.2).placed ws := rfl

theorem placed_append (f : FlatMemory) (ws ws' : List (Nat × Bytes)) :
    f.placed (ws ++ ws') = (f.placed ws).placed ws' := List.foldl_append

@[simp] theorem size_placed (f : FlatMemory) (ws : List (Nat × Bytes)) :
    (f.placed ws).size = f.size := by
  induction ws generalizing f with
  | nil => rfl
  | cons w ws ih => exact ih _

/-- A byte that no write covers is as before. -/
theorem byte_placed_of_not_covers (h : ∀ w ∈ ws, ¬Covers w a) :
    (f.placed ws).byte a = f.byte a := by
  induction ws generalizing f with
  | nil => rfl
  | cons w ws ih =>
    rw [placed_cons, ih fun v hv => h v (.tail _ hv), byte_overlay_of_not_covers (h w (.head _))]

/-- A byte that writes cover is the one of the last of them. -/
theorem byte_placed_of_last (hw : Covers w a) (hlater : ∀ v ∈ later, ¬Covers v a) :
    w.2[a - w.1]? = some ((f.placed (earlier ++ w :: later)).byte a) := by
  rw [placed_append, placed_cons, byte_placed_of_not_covers hlater]
  exact byte_overlay_of_covers hw

/-- Bytes that no later write touches are read back. -/
theorem slice_placed (h : ∀ v ∈ later, w.1 + w.2.length ≤ v.1 ∨ v.1 + v.2.length ≤ w.1) :
    (f.placed (earlier ++ w :: later)).slice w.1 w.2.length = w.2 := by
  apply List.ext_getElem?
  intro k
  by_cases hk : k < w.2.length
  · have hcovers : Covers w (w.1 + k) := ⟨Nat.le_add_right _ _, Nat.add_lt_add_left hk _⟩
    have hlater : ∀ v ∈ later, ¬Covers v (w.1 + k) := by
      intro v hv hcovers'
      have := h v hv
      unfold Covers at hcovers'
      omega
    have hbyte : w.2[w.1 + k - w.1]? = some ((f.placed (earlier ++ w :: later)).byte (w.1 + k)) :=
      byte_placed_of_last hcovers hlater
    rw [Nat.add_sub_cancel_left] at hbyte
    rw [hbyte, slice, List.getElem?_map, List.getElem?_range' hk, Nat.one_mul]
    rfl
  · rw [List.getElem?_eq_none (by simpa using hk), List.getElem?_eq_none (by simpa using hk)]

/-- Of writes that stand one behind the other each is read back. -/
theorem slice_placed_of_pairwise (h : ws.Pairwise fun v w => v.1 + v.2.length ≤ w.1)
    (hw : w ∈ ws) : (f.placed ws).slice w.1 w.2.length = w.2 := by
  obtain ⟨earlier, later, rfl⟩ := List.append_of_mem hw
  obtain ⟨-, hlater, -⟩ := List.pairwise_append.mp h
  exact slice_placed fun v hv => .inl ((List.pairwise_cons.mp hlater).1 v hv)

end FlatMemory

namespace Memory

variable {m : Memory}

def flat (m : Memory) : FlatMemory := ⟨m.size, m.byte⟩

theorem flat_overlay (m : Memory) (start : Nat) (bs : Bytes) :
    (m.overlay start bs).flat = m.flat.overlay start bs := by
  rw [flat, size_overlay, FlatMemory.overlay]
  congr 1
  funext a
  exact byte_overlay m start bs a

theorem write?_flat (m : Memory) (start : Nat) (bs : Bytes) :
    m.flat.write? start bs = (m.write? start bs).map flat := by
  by_cases h : start + bs.length ≤ m.size
  · rw [write?_of_le h, Option.map_some, flat_overlay]
    exact if_pos h
  · rw [write?, if_neg h]
    exact if_neg h

end Memory

/-- A machine that reads and writes a flat memory, which is seen in its states. -/
structure Machine.IsFlat {κ ω : Type} (m : Machine κ ω) (view : ω → Option FlatMemory) : Prop where
  write : ∀ {s f}, view s = some f → ∀ start bs,
    (m.write start bs s).1.toOption = (f.write? start bs).map (fun _ => ()) ∧
      view (m.write start bs s).2 = some ((f.write? start bs).getD f)
  read : ∀ {s f}, view s = some f → ∀ start len,
    (m.read start len s).1.toOption = f.read? start len ∧ view (m.read start len s).2 = some f

/-- A machine that reads a flat memory, which is seen in its states, and tells its bounds. -/
structure Machine.ShowsFlat {κ ω : Type} (m : Machine κ ω) (view : ω → Option FlatMemory) :
    Prop where
  read : ∀ {s f}, view s = some f → ∀ start len,
    (m.read start len s).1 = f.fetch start len ∧ view (m.read start len s).2 = some f

/-- The memory of a contract, once there is an instance. -/
def Contract.view (c : Contract) : Option FlatMemory := c.live.map fun i => i.memory.flat

namespace Wasm.Instance

variable {η : Type}

theorem map_memory_write? (i : Instance η) (start : Nat) (bs : Bytes) :
    (i.write? start bs).map memory = i.memory.write? start bs := by
  rw [write?]
  cases hm : i.memory.write? start bs with
  | none => rfl
  | some m =>
    -- without a memory there is room for no byte, and nothing changes
    have hempty (hmemory : i.memory = .zeros 0) : m = .zeros 0 := by
      rw [hmemory] at hm
      obtain ⟨hle, h⟩ := Option.ite_none_right_eq_some.mp hm
      have hlength : bs.length = 0 := Nat.eq_zero_of_add_eq_zero_left (Nat.le_zero.mp hle)
      obtain rfl := List.length_eq_zero_iff.mp hlength
      exact (Option.some.inj h).symm
    rw [Option.map_some, Option.map_some, Option.some.injEq]
    cases hshown : i.program.shown? with
    | none =>
      rw [hempty (by simp [memory, Program.view, hshown])]
      simp [memory, Program.view, hshown]
    | some n =>
      by_cases hn : n < i.store.memories.length
      · simp [memory, Program.view, Program.update, Store.withMemory, hshown, hn]
      · rw [hempty (by simp [memory, Program.view, hshown, hn])]
        simp [memory, Program.view, Program.update, Store.withMemory, hshown, hn]

end Wasm.Instance

theorem showsFlat_contract : Machine.contract.ShowsFlat Contract.view where
  read {c f} h start len := by
    obtain ⟨i, hi, rfl⟩ := Option.map_eq_some_iff.mp h
    refine ⟨?_, h⟩
    change c.read start len = _
    simp only [Contract.read, hi, Call.read, Memory.read?, FlatMemory.fetch]
    by_cases hle : start + len ≤ i.memory.size
    · simp only [if_pos hle]
      exact (if_pos hle).symm
    · simp only [if_neg hle]
      exact (if_neg hle).symm

theorem isFlat_contract : Machine.contract.IsFlat Contract.view where
  write {c f} h start bs := by
    obtain ⟨i, hi, rfl⟩ := Option.map_eq_some_iff.mp h
    change (c.write start bs).1.toOption = _ ∧ Contract.view (c.write start bs).2 = _
    have hwrite := i.map_memory_write? start bs
    rw [Memory.write?_flat, ← hwrite]
    simp only [Contract.write, hi, Call.write, Contract.view]
    cases i.write? start bs with
    | none => exact ⟨rfl, rfl⟩
    | some j => exact ⟨rfl, rfl⟩
  read h start len := by
    obtain ⟨hread, hview⟩ := showsFlat_contract.read h start len
    exact ⟨by rw [hread, FlatMemory.toOption_fetch], hview⟩

end OpcodeConformance
