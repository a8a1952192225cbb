import OpcodeConformance.Proofs.Opcode.Program

namespace OpcodeConformance.Addition

open Wasm Opcode

abbrev program : Program HostState := Opcode.program "ADD" [gasImport] [function] [charger]

variable {c : Contract} {e : Environment} {m : Memory} {sp : Nat} {waiting : List Effect}

theorem signed?_ofNat {n : Nat} (h : n < 2 ^ 31) :
    (Value.i32 (.ofNat n)).signed? = some (Int64.ofNat n) := by
  have hcast : UInt32.ofNat n = .ofInt n := ofNat_toNat (Int.natCast_nonneg n)
  rw [hcast, signed?_ofInt (by omega) (by omega), Int64.ofInt_eq_ofNat]

/-- Addition replaces the two uppermost words by their sum, points to it, and charges three. -/
theorem call_add (hsp : 32 ≤ sp) (hsize : sp + 32 ≤ m.size) (hm : m.size ≤ 2 ^ 31) :
    (session c program e m (.ofNat sp) waiting).call "ADD" [] =
      (.ok (some (Int64.ofNat (sp - 32))),
        session c program e (m.overlay (sp - 32) (Bytes.little 32 (sum m (sp - 32) sp)))
          (.ofNat (sp - 32)) (waiting ++ [.useGas 3])) := by
  have hgas : callFrom "ADD" [gasImport] [function] [charger] function 0
      [.i64 3] ⟨[m], [.i32 (.ofNat sp)], ⟨e, [], true⟩⟩ =
      .ends ([], ⟨[m], [.i32 (.ofNat sp)], ⟨e, [.useGas 3], true⟩⟩) :=
    callWithin_charger shown?_program rfl (by decide)
  have hcall := call_function program _ _ hsp hsize (Nat.lt_of_le_of_lt hm (by decide)) rfl hgas
  have hlt : sp - 32 < 2 ^ 31 := by omega
  rw [← signed?_ofNat hlt]
  exact shipped_add.call hcall

theorem call_add_slot {n : Nat} (hsize : (n + 2) * 32 ≤ m.size) (hm : m.size ≤ 2 ^ 31) :
    (session c program e m (.ofNat ((n + 1) * 32)) waiting).call "ADD" [] =
      (.ok (some (Int64.ofNat (n * 32))),
        session c program e (m.overlay (n * 32) (Bytes.little 32 (sum m (n * 32) ((n + 1) * 32))))
          (.ofNat (n * 32)) (waiting ++ [.useGas 3])) := by
  have hbelow : (n + 1) * 32 - 32 = n * 32 := by omega
  have h : (session c program e m (.ofNat ((n + 1) * 32)) waiting).call "ADD" [] = _ :=
    call_add (by omega) (by omega) hm
  rwa [hbelow] at h

/-- Addition is in place: the lower of the two uppermost words becomes their sum modulo 2 to the
256, and every byte outside of it is as before. -/
theorem call_add_in_place {p : Program HostState} (hp : Runs "ADD" p) (hsp : 32 ≤ sp)
    (hsize : sp + 32 ≤ m.size) (hm : m.size ≤ 2 ^ 31) :
    ∃ m', (session c p e m (.ofNat sp) waiting).call "ADD" [] =
        (.ok (some (Int64.ofNat (sp - 32))),
          session c p e m' (.ofNat (sp - 32)) (waiting ++ [.useGas 3])) ∧
      Bytes.littleValue (m'.slice (sp - 32) 32) =
        (Bytes.littleValue (m.slice (sp - 32) 32) + Bytes.littleValue (m.slice sp 32)) % 2 ^ 256 ∧
      m'.AgreeOutside m (sp - 32) 32 := by
  obtain rfl := shipped_add.runs_iff.mp hp
  have hlength := Bytes.length_little 32 (sum m (sp - 32) sp)
  refine ⟨_, call_add hsp hsize hm, ?_,
    Memory.agreeOutside_overlay m (Nat.le_refl _) (by rw [hlength])⟩
  have hslice := Memory.slice_overlay_self m (sp - 32) (Bytes.little 32 (sum m (sp - 32) sp))
  rw [hlength] at hslice
  rw [hslice, Bytes.littleValue_little]
  rfl

/-- The carry goes through all limbs, in a memory of two words. -/
theorem call_add_in_place_carries :
    let m := ((Memory.zeros 64).overlay 0 (Bytes.little 32 (2 ^ 256 - 1))).overlay 32
      (Bytes.little 32 3)
    let c : Contract := .new (.compiled program.module) .empty .zero
    ∃ m', (session c program emptyEnvironment m (.ofNat 32) [.useGas 1]).call "ADD" [] =
        (.ok (some 0), session c program emptyEnvironment m' (.ofNat 0) [.useGas 1, .useGas 3]) ∧
      Bytes.littleValue (m'.slice 0 32) = 2 ∧ m'.AgreeOutside m 0 32 := by
  intro m c
  have hwords : Bytes.littleValue (m.slice 0 32) = 2 ^ 256 - 1 ∧
      Bytes.littleValue (m.slice 32 32) = 3 := by decide +kernel
  have hsize : m.size = 64 := rfl
  obtain ⟨m', hcall, hsum, hagree⟩ := call_add_in_place (c := c) (e := emptyEnvironment) (m := m)
    (shipped_add.runs_iff.mpr rfl) (by decide : 32 ≤ 32) (by rw [hsize]) (by rw [hsize]; decide)
  refine ⟨m', hcall, ?_, hagree⟩
  rw [hsum, hwords.1, hwords.2]
  rfl

end OpcodeConformance.Addition
