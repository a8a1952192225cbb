import Mathlib.Algebra.Ring.Int.Defs
import OpcodeConformance.Wasm.Value

namespace OpcodeConformance.Wasm

/-- A value is an integer that stands for a number if its bits are read with a sign. -/
def Value.Denotes (v : Value) (x : Int) : Prop :=
  match v with
  | .i32 w => w.toInt32.toInt = x
  | .i64 w => w.toInt64.toInt = x
  | _ => False

namespace Value

theorem toInt_toInt32_ofInt {x : Int} (hle : -2 ^ 31 ≤ x) (hlt : x < 2 ^ 31) :
    (UInt32.ofInt x).toInt32.toInt = x := by
  have hbmod : (x % 2 ^ 32).bmod Int32.size = x :=
    (Int.emod_bmod x (2 ^ 32)).trans (Int.bmod_eq_of_le (by omega) (by omega))
  rw [UInt32.ofInt, UInt32.toInt32_ofNat', Int32.toInt_ofNat', Int.toNat_of_nonneg (by omega),
    hbmod]

theorem denotes_i32 {x : Int64} (hle : -2 ^ 31 ≤ x.toInt) (hlt : x.toInt < 2 ^ 31) :
    (i32 (.ofInt x.toInt)).Denotes x.toInt := toInt_toInt32_ofInt hle hlt

theorem denotes_i64 (x : Int64) : (i64 x.toUInt64).Denotes x.toInt :=
  congrArg Int64.toInt (Int64.toInt64_toUInt64 x)

/-- Reading a value as a signed number loses nothing, and is possible for integers only. -/
theorem signed?_eq_some_iff {v : Value} {x : Int64} :
    v.signed? = some x ↔ v.Denotes x.toInt := by
  cases v with
  | i32 w =>
    have hwide : (Int64.ofInt w.toInt32.toInt).toInt = w.toInt32.toInt :=
      Int64.toInt_ofInt_of_le (by have := w.toInt32.le_toInt; omega)
        (by have := w.toInt32.toInt_lt; omega)
    rw [signed?, Option.some.injEq, ← Int64.toInt_inj, hwide]
    exact Iff.rfl
  | i64 w => rw [signed?, Option.some.injEq, ← Int64.toInt_inj, Denotes]
  | f32 | f64 | v128 | funcref | externref => simp [signed?, Denotes]

end Value

end OpcodeConformance.Wasm
