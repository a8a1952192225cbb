import OpcodeConformance.Proofs.Bytes
import OpcodeConformance.Proofs.Wasm.Execution

namespace OpcodeConformance.Addition

open Wasm

/-- One limb: the sum of two limbs and the carry is stored over the first of them. -/
def limb : Code := .ops [
  .localGet 2, .const (.i32 32), .numeric .i32Eq, .branchIf 1,
  .localGet 0, .localGet 2, .numeric .i32Add, .load .word64 ⟨0, 0, 8⟩, .localSet 3,
  .localGet 3, .localGet 1, .localGet 2, .numeric .i32Add, .load .word64 ⟨0, 0, 8⟩,
  .numeric .i64Add, .localGet 5, .numeric .i64Add, .localSet 4,
  .localGet 4, .localGet 3, .numeric .i64LtU, .localGet 4, .localGet 3, .numeric .i64Eq,
  .localGet 5, .const (.i64 0), .numeric .i64Ne, .numeric .i32And, .numeric .i32Or,
  .numeric .i64ExtendI32U, .localSet 5,
  .localGet 0, .localGet 2, .numeric .i32Add, .localGet 4, .store .word64 ⟨0, 0, 8⟩,
  .localGet 2, .const (.i32 8), .numeric .i32Add, .localSet 2, .branch 0] .done

/-- The locals of the code: the addresses of the words, the offset of the limb, the limb of the
first word, the limb of the sum, and the carry. -/
def locals (a b i : Nat) (x s : Value) (carry : Nat) : List Value :=
  [.i32 (.ofNat a), .i32 (.ofNat b), .i32 (.ofNat i), x, s, .i64 (.ofNat carry)]

/-- The overflow of a sum of two limbs and a carry, as the code finds it. -/
theorem toNat_carry {x y c : Nat} (hx : x < 2 ^ 64) (hy : y < 2 ^ 64) (hc : c ≤ 1) :
    (decide (UInt64.ofNat (x + y + c) < .ofNat x) ||
      (decide (UInt64.ofNat (x + y + c) = .ofNat x) && decide (UInt64.ofNat c ≠ 0))).toNat =
        (x + y + c) / 2 ^ 64 := by
  have hsum : (UInt64.ofNat (x + y + c)).toNat = (x + y + c) % 2 ^ 64 := UInt64.toNat_ofNat'
  have hx' : (UInt64.ofNat x).toNat = x := UInt64.toNat_ofNat_of_lt' hx
  have hc' : (UInt64.ofNat c).toNat = c :=
    UInt64.toNat_ofNat_of_lt' (Nat.lt_of_le_of_lt hc (by decide))
  have hzero : (UInt64.ofNat c ≠ 0) ↔ c ≠ 0 := by
    rw [ne_eq, ← UInt64.toNat_inj, hc', UInt64.toNat_zero]
  have hoverflow : (UInt64.ofNat (x + y + c) < .ofNat x ∨
      UInt64.ofNat (x + y + c) = .ofNat x ∧ UInt64.ofNat c ≠ 0) ↔ 2 ^ 64 ≤ x + y + c := by
    rw [UInt64.lt_iff_toNat_lt, ← UInt64.toNat_inj, hsum, hx', hzero]
    omega
  rw [← Bool.decide_and, ← Bool.decide_or, decide_eq_decide.mpr hoverflow]
  by_cases h : 2 ^ 64 ≤ x + y + c
  · rw [decide_eq_true h, Bool.toNat_true]
    omega
  · rw [decide_eq_false h, Bool.toNat_false]
    omega

variable {η : Type} (p : Program η) (call : Nat → List Value → Store η → Call η)
  (globals : List Value) (host : η) {m : Memory} {a b i c : Nat} (x s : Value)

theorem run_limb (ha : a + 32 ≤ m.size) (hb : b + 32 ≤ m.size) (hm : m.size < 2 ^ 32)
    (hi : i + 8 ≤ 32) (hc : c ≤ 1) :
    let v := Bytes.littleValue (m.slice (a + i) 8)
    let w := Bytes.littleValue (m.slice (b + i) 8)
    run p call limb ⟨⟨[m], globals, host⟩, locals a b i x s c, []⟩ =
      .ends (.jump 0, ⟨⟨[m.overlay (a + i) (Bytes.little 8 (v + w + c))], globals, host⟩,
        locals a b (i + 8) (.i64 (.ofNat v)) (.i64 (.ofNat (v + w + c)))
          ((v + w + c) / 2 ^ 64), []⟩) := by
  intro v w
  have hv : v < 2 ^ 64 := by simpa using Bytes.littleValue_lt (m.slice (a + i) 8)
  have hw : w < 2 ^ 64 := by simpa using Bytes.littleValue_lt (m.slice (b + i) 8)
  have hgoesOn : decide (UInt32.ofNat i = 32) = false := by
    have hi' : (UInt32.ofNat i).toNat = i :=
      UInt32.toNat_ofNat_of_lt' (Nat.lt_of_le_of_lt (by omega : i ≤ 24) (by decide))
    rw [decide_eq_false_iff_not, ← UInt32.toNat_inj, hi']
    change ¬i = 32
    omega
  have hstored : Store.storedBytes? .word64 (.i64 (.ofNat (v + w + c))) =
      some (Bytes.little 8 (v + w + c)) := by
    rw [Store.storedBytes?, UInt64.toNat_ofNat']
    exact congrArg some (Bytes.little_mod 8 (v + w + c))
  have hnext : Numeric.i32Add.apply [.i32 8, .i32 (.ofNat i)] = .ok [.i32 (.ofNat (i + 8))] :=
    Numeric.apply_i32Add i 8
  unfold limb locals
  simp only [Code.ops_cons, Code.ops_nil]
  rw [run_localGet rfl, run_const, run_numeric rfl, run_branchIf_ofBool, hgoesOn, if_neg (by simp)]
  -- the limbs of both words
  rw [run_localGet rfl, run_localGet rfl, run_numeric (Numeric.apply_i32Add a i),
    run_load_of_le (v := .i64 (.ofNat v)) rfl (by omega) (by simp [Access.width]; omega) rfl,
    run_localSet]
  rw [run_localGet rfl, run_localGet rfl, run_localGet rfl, run_numeric (Numeric.apply_i32Add b i),
    run_load_of_le (v := .i64 (.ofNat w)) rfl (by omega) (by simp [Access.width]; omega) rfl]
  -- their sum
  rw [run_numeric (Numeric.apply_i64Add v w), run_localGet rfl,
    run_numeric (Numeric.apply_i64Add (v + w) c), run_localSet]
  -- the carry
  rw [run_localGet rfl, run_localGet rfl, run_numeric rfl, run_localGet rfl, run_localGet rfl,
    run_numeric rfl, run_localGet rfl, run_const, run_numeric rfl,
    run_numeric (Numeric.apply_i32And_ofBool _ _), run_numeric (Numeric.apply_i32Or_ofBool _ _),
    run_numeric (Numeric.apply_i64ExtendI32U_ofBool _), run_localSet]
  -- the sum goes over the first limb
  rw [run_localGet rfl, run_localGet rfl, run_numeric (Numeric.apply_i32Add a i), run_localGet rfl,
    run_store_of_le hstored rfl (by omega) (by simp; omega)]
  -- the next limb
  rw [run_localGet rfl, run_const, run_numeric hnext, run_localSet, run_branch]
  rw [toNat_carry hv hw hc]
  rfl

/-- Behind the last limb the loop is left. -/
theorem run_limb_last :
    run p call limb ⟨⟨[m], globals, host⟩, locals a b 32 x s c, []⟩ =
      .ends (.jump 1, ⟨⟨[m], globals, host⟩, locals a b 32 x s c, []⟩) := by
  unfold limb locals
  simp only [Code.ops_cons]
  rw [run_localGet rfl, run_const, run_numeric rfl, run_branchIf_ofBool]
  rfl

def sum (m : Memory) (a b : Nat) : Nat :=
  Bytes.littleValue (m.slice a 32) + Bytes.littleValue (m.slice b 32)

/-- The frame behind some limbs: the low bytes of the sum are in the first word. -/
def Reached (m : Memory) (a b : Nat) (globals : List Value) (host : η) (k : Nat) (f : Frame η) :
    Prop :=
  ∃ x s, f = ⟨⟨[m.overlay a (Bytes.little (8 * k) (sum m a b))], globals, host⟩,
    locals a b (8 * k) x s (Bytes.carry (8 * k) (Bytes.littleValue (m.slice a 32))
      (Bytes.littleValue (m.slice b 32))), []⟩

theorem reached_succ (ha : a + 32 ≤ b) (hb : b + 32 ≤ m.size) (hm : m.size < 2 ^ 32) {k : Nat}
    {f : Frame η} (hk : k < 4) (hf : Reached m a b globals host k f) :
    ∃ g, run p call limb { f with stack := f.stack.take 0 } = .ends (.jump 0, g) ∧
      Reached m a b globals host (k + 1) g := by
  obtain ⟨x, s, rfl⟩ := hf
  have hsize : (m.overlay a (Bytes.little (8 * k) (sum m a b))).size = m.size := by simp
  have hx : (m.overlay a (Bytes.little (8 * k) (sum m a b))).slice (a + 8 * k) 8 =
      m.slice (a + 8 * k) 8 := Memory.slice_overlay_of_disjoint (.inr (by simp))
  have hy : (m.overlay a (Bytes.little (8 * k) (sum m a b))).slice (b + 8 * k) 8 =
      m.slice (b + 8 * k) 8 := Memory.slice_overlay_of_disjoint (.inr (by simp; omega))
  have ha' : a + 32 ≤ (m.overlay a (Bytes.little (8 * k) (sum m a b))).size := by
    rw [hsize]
    omega
  -- neither limb has been written so far
  have hround := run_limb p call globals host x s ha' (by rw [hsize]; exact hb)
    (by rw [hsize]; exact hm)
    (by omega : 8 * k + 8 ≤ 32) (Bytes.carry_le (8 * k) (Bytes.littleValue (m.slice a 32))
      (Bytes.littleValue (m.slice b 32)))
  rw [hx, hy, Memory.littleValue_slice m (by omega : 8 * k + 8 ≤ 32),
    Memory.littleValue_slice m (by omega : 8 * k + 8 ≤ 32)] at hround
  have hmemory : m.overlay a (Bytes.little (8 * (k + 1)) (sum m a b)) =
      (m.overlay a (Bytes.little (8 * k) (sum m a b))).overlay (a + 8 * k) (Bytes.little 8
        (Bytes.littleValue (m.slice a 32) / 256 ^ (8 * k) % 256 ^ 8 +
          Bytes.littleValue (m.slice b 32) / 256 ^ (8 * k) % 256 ^ 8 +
          Bytes.carry (8 * k) (Bytes.littleValue (m.slice a 32))
            (Bytes.littleValue (m.slice b 32)))) := by
    rw [Nat.mul_succ, Bytes.little_add, Memory.overlay_append, Bytes.length_little]
    congr 1
    exact Bytes.little_sum (8 * k) 8 _ _
  refine ⟨_, hround, ?_⟩
  unfold Reached
  rw [hmemory, Nat.mul_succ, Bytes.carry_add]
  exact ⟨_, _, rfl⟩

def loop : Code := .loop ⟨[], []⟩ limb .done

theorem skip_limb (f : Frame η) (h : f.locals.length = 6) : skip 0 limb f = f := by
  have hnone : Counting.Progress.finish? limb (.start 6) = none := by decide
  rw [skip, if_pos rfl, Counting.ahead, h, hnone]

theorem run_loop (ha : a + 32 ≤ b) (hb : b + 32 ≤ m.size) (hm : m.size < 2 ^ 32) :
    ∃ locals', run p call loop ⟨⟨[m], globals, host⟩, locals a b 0 x s 0, []⟩ =
      .ends (.jump 0, ⟨⟨[m.overlay a (Bytes.little 32 (sum m a b))], globals, host⟩,
        .i32 (.ofNat a) :: locals', []⟩) := by
  have hstart : Reached m a b globals host 0 ⟨⟨[m], globals, host⟩, locals a b 0 x s 0, []⟩ :=
    ⟨x, s, by rw [Bytes.carry_zero]; rfl⟩
  -- four of the rounds that the loop may take are used up
  obtain ⟨g, ⟨x', s', rfl⟩, hiterate⟩ := iterate_of_invariant (n := greatestIterations - 5 + 1)
    (fun k f hk hf => reached_succ p call globals host ha hb hm hk hf) hstart
  have hloop := hiterate.trans (iterate_of_exit (run_limb_last p call globals host x' s'))
  refine ⟨(locals a b 32 x' s' (Bytes.carry 32 (Bytes.littleValue (m.slice a 32))
    (Bytes.littleValue (m.slice b 32)))).tail, ?_⟩
  rw [loop, Wasm.run_loop (skip_limb _ rfl)]
  change ((iterate 0 (run p call limb) (greatestIterations - 5 + 1 + 4) _).leave 0 []).goOn _ = _
  rw [hloop, Outcome.leave_jump_succ, Outcome.goOn_jump]
  rfl

def body : Code :=
  .ops [.const (.i64 3), .call 0, .globalGet 0, .const (.i32 32), .numeric .i32Sub, .localSet 0,
    .globalGet 0, .localSet 1]
    (.block ⟨[], []⟩ loop (.ops [.localGet 0, .globalSet 0, .globalGet 0] .done))

def function : Function := ⟨⟨[], [.i32]⟩, [.i32, .i32, .i32, .i64, .i64, .i64], body⟩

/-- The function replaces the lower of the two uppermost words by their sum. -/
theorem call_function {sp : Nat} {host' : η} (hsp : 32 ≤ sp) (hsize : sp + 32 ≤ m.size)
    (hm : m.size < 2 ^ 32) (htype : p.functionType? 0 = some ⟨[.i64], []⟩)
    (hgas : call 0 [.i64 3] ⟨[m], [.i32 (.ofNat sp)], host⟩ =
      .ends ([], ⟨[m], [.i32 (.ofNat sp)], host'⟩)) :
    function.call p call [] ⟨[m], [.i32 (.ofNat sp)], host⟩ =
      .ends ([.i32 (.ofNat (sp - 32))],
        ⟨[m.overlay (sp - 32) (Bytes.little 32 (sum m (sp - 32) sp))],
          [.i32 (.ofNat (sp - 32))], host'⟩) := by
  have hbelow : sp - 32 + 32 ≤ sp := by omega
  obtain ⟨locals', hloop⟩ :=
    run_loop p call [.i32 (.ofNat sp)] host' (.i64 0) (.i64 0) hbelow hsize hm
  have hsub : Numeric.i32Sub.apply [.i32 32, .i32 (.ofNat sp)] = .ok [.i32 (.ofNat (sp - 32))] :=
    Numeric.apply_i32Sub hsp
  have hbody : run p call body ⟨⟨[m], [.i32 (.ofNat sp)], host⟩,
      function.locals.map Value.zero, []⟩ =
      .ends (.next, ⟨⟨[m.overlay (sp - 32) (Bytes.little 32 (sum m (sp - 32) sp))],
        [.i32 (.ofNat (sp - 32))], host'⟩, .i32 (.ofNat (sp - 32)) :: locals',
        [.i32 (.ofNat (sp - 32))]⟩) := by
    unfold body
    simp only [Code.ops_cons, Code.ops_nil]
    rw [run_const, run_call_unit htype hgas, run_globalGet rfl, run_const, run_numeric hsub,
      run_localSet, run_globalGet rfl, run_localSet, run_block]
    change ((run p call loop ⟨_, locals (sp - 32) sp 0 (.i64 0) (.i64 0) 0, []⟩).leave 0 []).goOn
      _ = _
    rw [hloop, Outcome.leave_jump_zero, Outcome.goOn_next, run_localGet rfl, run_globalSet,
      run_globalGet rfl, run_done]
    rfl
  have hstart : run p call function.body ⟨⟨[m], [.i32 (.ofNat sp)], host⟩,
      [] ++ function.locals.map Value.zero, []⟩ = _ := hbody
  exact Function.call_of_ends hstart

end OpcodeConformance.Addition
