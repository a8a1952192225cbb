import OpcodeConformance.Proofs.Opcode.Shipped
import OpcodeConformance.Proofs.Wasm.Value
import OpcodeConformance.Settings

namespace OpcodeConformance.Opcode

open Wasm

/-- Whether a program runs an opcode: it belongs to an instance of the code that the name of the
opcode stands for. -/
def Runs (op : String) (p : Program HostState) : Prop :=
  ∃ m host i, Synthesis.code Library.shipped.compiler Toolchain.module op = .ok (.compiled m) ∧
    Instance.start Interface.host m host = .ok i ∧ i.program = p

def emptyEnvironment : Environment := ⟨.zero, .zero, [], .initial, none⟩

theorem Shipped.runs_iff {op : String} {imports : List (String × FunctionType)}
    {functions : List Function} {hosts : List (HostFunction HostState)} {f : Function}
    {p : Program HostState} (h : Shipped op imports functions hosts f) :
    Runs op p ↔ p = program op imports functions hosts := by
  constructor
  · rintro ⟨m, host, i, hcode, hstart, rfl⟩
    obtain rfl : m = module op imports functions :=
      Binary.compiled.inj (Except.ok.inj (hcode.symm.trans h.code))
    have hi := Except.ok.inj (hstart.symm.trans (start_module h.linked host))
    rw [hi, instanceOf]
  · rintro rfl
    exact ⟨_, ⟨emptyEnvironment, [], true⟩, _, h.code, start_module h.linked _, rfl⟩

theorem ofNat_toNat {z : Int} (h : 0 ≤ z) : UInt32.ofNat z.toNat = .ofInt z := by
  apply UInt32.toNat_inj.mp
  rw [UInt32.ofInt, UInt32.toNat_ofNat', UInt32.toNat_ofNat']
  omega

/-- A pointer that is moved down, as a signed number. -/
theorem ofNat_sub_ofNat (s k : Nat) : UInt32.ofNat s - .ofNat k = .ofInt (s - k) := by
  apply UInt32.toNat_inj.mp
  rw [UInt32.toNat_sub, UInt32.toNat_ofNat', UInt32.toNat_ofNat', UInt32.ofInt,
    UInt32.toNat_ofNat']
  omega

theorem toNat_ofNat_sub {s k : Nat} (hk : k ≤ s) (hs : s < 2 ^ 32) :
    (UInt32.ofNat s - .ofNat k).toNat = s - k := by
  rw [← UInt32.ofNat_sub hk]
  exact UInt32.toNat_ofNat_of_lt' (Nat.lt_of_le_of_lt (Nat.sub_le s k) hs)

theorem signed?_ofInt {z : Int} (hle : -2 ^ 31 ≤ z) (hlt : z < 2 ^ 31) :
    (Value.i32 (.ofInt z)).signed? = some (Int64.ofInt z) := by
  rw [Value.signed?, Value.toInt_toInt32_ofInt hle hlt]

/-- The number that a function loads from a word of the stack: its low four bytes. -/
def low (m : Memory) (sp : UInt32) : UInt32 := .ofNat (Bytes.littleValue (m.slice sp.toNat 4))

theorem toNat_low (m : Memory) (sp : UInt32) :
    (low m sp).toNat = Bytes.littleValue (m.slice sp.toNat 32) % 2 ^ 32 := by
  have hlow : Bytes.littleValue (m.slice (sp.toNat + 0) 4) =
      Bytes.littleValue (m.slice sp.toNat 32) / 256 ^ 0 % 256 ^ 4 :=
    m.littleValue_slice (by decide)
  rw [Nat.add_zero, Nat.pow_zero, Nat.div_one] at hlow
  rw [low, hlow, UInt32.toNat_ofNat']
  omega

/-- The address that a word of the stack stands for as an offset. Adding the base of the memory may
wrap around. -/
def address (m : Memory) (sp : UInt32) : UInt32 := low m sp + 33832

theorem toNat_address (m : Memory) (sp : UInt32) :
    (address m sp).toNat =
      (Settings.defaultMemoryBase + Bytes.littleValue (m.slice sp.toNat 32)) % 2 ^ 32 := by
  have hbase : (33832 : UInt32).toNat = Settings.defaultMemoryBase := rfl
  rw [address, UInt32.toNat_add, toNat_low, hbase]
  omega

theorem toNat_address_ofNat {m : Memory} {s : Nat} (hs : s < 2 ^ 32)
    (h : Settings.defaultMemoryBase + Bytes.littleValue (m.slice s 32) < 2 ^ 32) :
    (address m (.ofNat s)).toNat =
      Settings.defaultMemoryBase + Bytes.littleValue (m.slice s 32) := by
  rw [toNat_address, UInt32.toNat_ofNat_of_lt' hs]
  exact Nat.mod_eq_of_lt h

end OpcodeConformance.Opcode
