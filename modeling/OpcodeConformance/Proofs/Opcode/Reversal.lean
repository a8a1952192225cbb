import OpcodeConformance.Proofs.Wasm.Execution

namespace OpcodeConformance

namespace Memory

def swap (m : Memory) (a b : Nat) : Memory := (m.overlay a (m.slice b 1)).overlay b (m.slice a 1)

@[simp] theorem size_swap (m : Memory) (a b : Nat) : (m.swap a b).size = m.size := by
  simp [swap]

theorem byte_swap (m : Memory) (a b i : Nat) :
    (m.swap a b).byte i = if i = b then m.byte a else if i = a then m.byte b else m.byte i := by
  have hslice (c : Nat) : m.slice c 1 = [m.byte c] := rfl
  rw [swap, hslice, hslice, byte_overlay_singleton, byte_overlay_singleton]

/-- The memory with the bytes of a range exchanged, as many as are given from both of its ends. -/
def swapEnds (m : Memory) (start len : Nat) : Nat → Memory
  | 0 => m
  | k + 1 => (swapEnds m start len k).swap (start + k) (start + len - 1 - k)

@[simp] theorem size_swapEnds (m : Memory) (start len k : Nat) :
    (m.swapEnds start len k).size = m.size := by
  induction k with
  | zero => rfl
  | succ k ih => rw [swapEnds, size_swap, ih]

/-- The bytes that have been exchanged are those as far from the other end. -/
theorem byte_swapEnds (m : Memory) {start len k : Nat} (h : 2 * k ≤ len) (i : Nat) :
    (m.swapEnds start len k).byte i =
      if start ≤ i ∧ i < start + k ∨ start + len - k ≤ i ∧ i < start + len then
        m.byte (start + len - 1 - (i - start))
      else m.byte i := by
  induction k generalizing i with
  | zero => exact (if_neg (by omega)).symm
  | succ k ih =>
    rw [swapEnds, byte_swap, ih (by omega), ih (by omega), ih (by omega)]
    -- neither of the two bytes has been exchanged so far
    rw [if_neg (by omega : ¬(start ≤ start + k ∧ start + k < start + k ∨ _)),
      if_neg (by omega : ¬(start ≤ start + len - 1 - k ∧ start + len - 1 - k < start + k ∨ _))]
    by_cases hlast : i = start + len - 1 - k
    · rw [if_pos hlast, if_pos (by omega)]
      congr 1
      omega
    · by_cases hfirst : i = start + k
      · rw [if_neg hlast, if_pos hfirst, if_pos (by omega)]
        congr 1
        omega
      · rw [if_neg hlast, if_neg hfirst]
        exact if_congr (by omega) rfl rfl

theorem slice_swapEnds (m : Memory) (start k : Nat) :
    (m.swapEnds start (2 * k) k).slice start (2 * k) = (m.slice start (2 * k)).reverse := by
  apply List.ext_getElem
  · simp
  · intro j hj hj'
    rw [length_slice] at hj
    simp only [slice, List.getElem_map, List.getElem_range', List.getElem_reverse,
      List.length_map, List.length_range', Nat.one_mul]
    rw [byte_swapEnds m (Nat.le_refl _), if_pos (by omega)]
    congr 1
    omega

theorem agreeOutside_swapEnds (m : Memory) {start len k : Nat} (h : 2 * k ≤ len) :
    (m.swapEnds start len k).AgreeOutside m start len where
  size := size_swapEnds m start len k
  byte i hi := by rw [byte_swapEnds m h, if_neg (by omega)]

end Memory

namespace Reversal

open Wasm

def round : Code := .ops [
  .localGet 1, .localGet 2, .numeric .i32GeU, .branchIf 1,
  .localGet 1, .load .byte ⟨0, 0, 1⟩, .localSet 3,
  .localGet 1, .localGet 2, .load .byte ⟨0, 0, 1⟩, .store .byte ⟨0, 0, 1⟩,
  .localGet 2, .localGet 3, .store .byte ⟨0, 0, 1⟩,
  .localGet 1, .const (.i32 1), .numeric .i32Add, .localSet 1,
  .localGet 2, .const (.i32 1), .numeric .i32Sub, .localSet 2, .branch 0] .done

/-- The locals of the code: the address of the first byte, the addresses of the bytes that are
exchanged, and one of these bytes. -/
def locals (a low high : Nat) (t : Value) : List Value :=
  [.i32 (.ofNat a), .i32 (.ofNat low), .i32 (.ofNat high), t]

variable {η : Type} (p : Program η) (call : Nat → List Value → Store η → Call η)
  (globals : List Value) (host : η) {m : Memory} {a low high : Nat} (t : Value)

theorem decide_ofNat_le {x y : Nat} (hx : x < 2 ^ 32) (hy : y < 2 ^ 32) :
    decide (UInt32.ofNat x ≤ .ofNat y) = decide (x ≤ y) := by
  rw [decide_eq_decide, UInt32.le_iff_toNat_le, UInt32.toNat_ofNat_of_lt' hx,
    UInt32.toNat_ofNat_of_lt' hy]

theorem run_round (hlow : low < high) (hhigh : high < m.size) (hm : m.size < 2 ^ 32) :
    ∃ t', run p call round ⟨⟨[m], globals, host⟩, locals a low high t, []⟩ =
      .ends (.jump 0,
        ⟨⟨[m.swap low high], globals, host⟩, locals a (low + 1) (high - 1) t', []⟩) := by
  have hgoesOn : decide (UInt32.ofNat high ≤ .ofNat low) = false := by
    rw [decide_ofNat_le (by omega) (by omega), decide_eq_false (Nat.not_le.mpr hlow)]
  have hbyte (m : Memory) (b : Nat) : Store.storedBytes? .byte
      (Access.byte.loaded (Bytes.littleValue (m.slice b 1))) = some (m.slice b 1) :=
    storedBytes?_loaded (Memory.length_slice m b 1)
  have hup : Numeric.i32Add.apply [.i32 1, .i32 (.ofNat low)] = .ok [.i32 (.ofNat (low + 1))] :=
    Numeric.apply_i32Add low 1
  have hdown : Numeric.i32Sub.apply [.i32 1, .i32 (.ofNat high)] =
      .ok [.i32 (.ofNat (high - 1))] := Numeric.apply_i32Sub (by omega : 1 ≤ high)
  refine ⟨Access.byte.loaded (Bytes.littleValue (m.slice low 1)), ?_⟩
  unfold round locals
  simp only [Code.ops_cons, Code.ops_nil]
  rw [run_localGet rfl, run_localGet rfl, run_numeric rfl, run_branchIf_ofBool, hgoesOn,
    if_neg (by simp)]
  -- both bytes are loaded before one of them is written over
  rw [run_localGet rfl, run_load_of_le (v := Access.byte.loaded (Bytes.littleValue (m.slice low 1)))
      rfl (by omega) (by simp [Access.width]; omega) rfl,
    run_localSet, run_localGet rfl, run_localGet rfl,
    run_load_of_le (v := Access.byte.loaded (Bytes.littleValue (m.slice high 1)))
      rfl (by omega) (by simp [Access.width]; omega) rfl]
  rw [run_store_of_le (hbyte m high) rfl (by omega) (by simp; omega), run_localGet rfl,
    run_localGet rfl, run_store_of_le (hbyte m low) rfl (by omega) (by simp; omega)]
  rw [run_localGet rfl, run_const, run_numeric hup, run_localSet, run_localGet rfl, run_const,
    run_numeric hdown, run_localSet, run_branch]
  rfl

/-- Where the addresses have met, the loop is left. -/
theorem run_round_last (hhigh : high ≤ low) (hlow : low < 2 ^ 32) :
    run p call round ⟨⟨[m], globals, host⟩, locals a low high t, []⟩ =
      .ends (.jump 1, ⟨⟨[m], globals, host⟩, locals a low high t, []⟩) := by
  have hmet : decide (UInt32.ofNat high ≤ .ofNat low) = true := by
    rw [decide_ofNat_le (by omega) hlow, decide_eq_true hhigh]
  unfold round locals
  simp only [Code.ops_cons]
  rw [run_localGet rfl, run_localGet rfl, run_numeric rfl, run_branchIf_ofBool, hmet]
  rfl

/-- The frame behind some rounds. -/
def Reached (m : Memory) (a : Nat) (globals : List Value) (host : η) (k : Nat) (f : Frame η) :
    Prop :=
  ∃ t, f = ⟨⟨[m.swapEnds a 20 k], globals, host⟩, locals a (a + k) (a + 20 - 1 - k) t, []⟩

theorem reached_succ (ha : a + 20 ≤ m.size) (hm : m.size < 2 ^ 32) {k : Nat} {f : Frame η}
    (hk : k < 10) (hf : Reached m a globals host k f) :
    ∃ g, run p call round { f with stack := f.stack.take 0 } = .ends (.jump 0, g) ∧
      Reached m a globals host (k + 1) g := by
  obtain ⟨t, rfl⟩ := hf
  obtain ⟨t', hround⟩ := run_round p call globals host (m := m.swapEnds a 20 k) (a := a) t
    (by omega : a + k < a + 20 - 1 - k) (by rw [Memory.size_swapEnds]; omega)
    (by rw [Memory.size_swapEnds]; exact hm)
  exact ⟨_, hround, t', rfl⟩

def loop : Code := .loop ⟨[], []⟩ round .done

theorem skip_round (f : Frame η) (h : f.locals.length = 4) : skip 0 round f = f := by
  have hnone : Counting.Progress.finish? round (.start 4) = none := by decide
  rw [skip, if_pos rfl, Counting.ahead, h, hnone]

theorem run_loop (ha : a + 20 ≤ m.size) (hm : m.size < 2 ^ 32) :
    ∃ t', run p call loop ⟨⟨[m], globals, host⟩, locals a a (a + 19) t, []⟩ =
      .ends (.jump 0,
        ⟨⟨[m.swapEnds a 20 10], globals, host⟩, locals a (a + 10) (a + 9) t', []⟩) := by
  have hstart : Reached m a globals host 0 ⟨⟨[m], globals, host⟩, locals a a (a + 19) t, []⟩ :=
    ⟨t, rfl⟩
  obtain ⟨g, ⟨t', rfl⟩, hiterate⟩ := iterate_of_invariant (n := greatestIterations - 11 + 1)
    (fun k f hk hf => reached_succ p call globals host ha hm hk hf) hstart
  have hloop := hiterate.trans (iterate_of_exit
    (run_round_last p call globals host t' (by omega : a + 20 - 1 - 10 ≤ a + 10) (by omega)))
  refine ⟨t', ?_⟩
  rw [loop, Wasm.run_loop (skip_round _ rfl)]
  change ((iterate 0 (run p call round) (greatestIterations - 11 + 1 + 10) _).leave 0 []).goOn _ = _
  rw [hloop, Outcome.leave_jump_succ, Outcome.goOn_jump]
  rfl

def body : Code :=
  .ops [.localGet 0, .localSet 1, .localGet 0, .const (.i32 19), .numeric .i32Add, .localSet 2]
    (.block ⟨[], []⟩ loop .done)

def function : Function := ⟨⟨[.i32], []⟩, [.i32, .i32, .i32], body⟩

theorem call_function (ha : a + 20 ≤ m.size) (hm : m.size < 2 ^ 32) :
    function.call p call [.i32 (.ofNat a)] ⟨[m], globals, host⟩ =
      .ends ([], ⟨[m.swapEnds a 20 10], globals, host⟩) := by
  obtain ⟨t', hloop⟩ := run_loop p call globals host (.i32 0) ha hm
  have hlast : Numeric.i32Add.apply [.i32 19, .i32 (.ofNat a)] = .ok [.i32 (.ofNat (a + 19))] :=
    Numeric.apply_i32Add a 19
  have hbody : run p call function.body ⟨⟨[m], globals, host⟩,
      [.i32 (.ofNat a)] ++ function.locals.map Value.zero, []⟩ =
      .ends (.next, ⟨⟨[m.swapEnds a 20 10], globals, host⟩, locals a (a + 10) (a + 9) t', []⟩) := by
    change run p call body _ = _
    unfold body
    simp only [Code.ops_cons, Code.ops_nil]
    rw [run_localGet rfl, run_localSet, run_localGet rfl, run_const, run_numeric hlast,
      run_localSet, run_block]
    change ((run p call loop ⟨_, locals a a (a + 19) (.i32 0), []⟩).leave 0 []).goOn _ = _
    rw [hloop, Outcome.leave_jump_zero, Outcome.goOn_next, run_done]
  exact Function.call_of_ends hbody

end Reversal

end OpcodeConformance
