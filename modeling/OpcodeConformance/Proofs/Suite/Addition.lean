import OpcodeConformance.Proofs.Context
import OpcodeConformance.Proofs.Opcode.Addition.Session
import OpcodeConformance.Proofs.Suite.Report
import OpcodeConformance.Proofs.Verdict

namespace OpcodeConformance

open Wasm Opcode

namespace Addition

/-- Addition in memory is addition of the numbers in the two uppermost slots. -/
theorem slots_overlay_sum {m : Memory} {below : List Nat} {a b : Nat}
    (h : m.slots 0 (below.length + 2) = below ++ [a, b]) :
    (m.overlay (below.length * Word.size) (Bytes.little 32
      (sum m (below.length * Word.size) ((below.length + 1) * Word.size)))).slots 0
        (below.length + 1) = below ++ [(a + b) % 2 ^ 256] := by
  rw [Memory.slots_concat, Memory.slots_concat, List.append_assoc] at h
  have hlength : (m.slots 0 below.length).length = below.length := by simp [Memory.slots]
  obtain ⟨hbelow, hupper⟩ := List.append_inj h hlength
  obtain ⟨ha, hupper⟩ := List.cons.inj hupper
  obtain ⟨hb, -⟩ := List.cons.inj hupper
  have hsum : sum m (below.length * Word.size) ((below.length + 1) * Word.size) = a + b := by
    rw [← ha, ← hb]
    rfl
  have hword : (Bytes.little 32 (a + b)).length = Word.size := Bytes.length_little 32 (a + b)
  have hpow : 256 ^ 32 = 2 ^ 256 := (Nat.pow_mul 2 8 32).symm
  rw [hsum, Memory.slots_overlay m below.length hword, hbelow, Bytes.littleValue_little, hpow]

end Addition

namespace Suite.Runner

def shipped (settings : Settings) : Runner Binary Contract :=
  ⟨settings, Library.shipped.compiler, Toolchain.module, Machine.contract⟩

variable {settings : Settings} {c : Case}

theorem prepare_add (hop : c.op = "ADD") (hstack : ∀ w ∈ c.input.stack, Word.IsSpelled w)
    (hmemory : ∀ w ∈ c.input.memory.entries, Word.IsSpelled w.2) :
    ∃ context i, (shipped settings).prepare c =
        .ok (.compiled (module "ADD" [gasImport] [Addition.function]), context, i) ∧
      context.message.gas = settings.gas ∧
      Contract.environment context.state context.account context.message =
        .ok (Context.visible c.environment) ∧
      (∀ w ∈ i.stack, w.length = Word.size) ∧
      i.stack.map Bytes.bigValue = c.input.stack.map Hex.number ∧
      ∀ w ∈ i.memory, w.2.length = Word.size ∧ ∃ v ∈ c.input.memory.entries, v.1 = w.1 := by
  obtain ⟨context, hcontext, hmessage, henvironment⟩ :=
    Context.build_eq_ok settings.gas c.environment
  obtain ⟨i, hi, hlength, hnumbers, hplaces⟩ := PreparedInput.ofInput_eq_ok hstack hmemory
  have hcode : Synthesis.code (shipped settings).compiler (shipped settings).toolchain c.op =
      .ok (.compiled (module "ADD" [gasImport] [Addition.function])) := by
    rw [hop]
    exact code_add
  exact ⟨context, i, prepare_eq_ok_iff.mpr ⟨hcode, hcontext, hi⟩, by rw [hmessage]; rfl,
    henvironment, hlength, hnumbers, hplaces⟩

/-- A run that ends is observed by what it returns, what it has staged and what it has charged. -/
theorem observe_of_execute {r : Runner Binary Contract} (hr : r.machine = Machine.contract)
    {code : Binary} {context : Context} {i : PreparedInput} {value : Option Int64} {s t : Contract}
    (h : Dispatch.execute Machine.contract r.settings.memoryBase code context i c.op c.params s =
      (.ok value, t)) (hlive : t.live.isSome = true) (hgas : t.gasLeft ≤ context.message.gas) :
    r.observe c code context i s =
      (.ok ⟨value, t.response.payload, context.message.gas - t.gasLeft⟩, t) := by
  have hattach : Machine.contract.perform .attach t = (.ok none, t) := by
    simp [Machine.perform, Action.withoutValue, Machine.contract, hlive, Except.map]
  rw [← hr] at h
  rw [observe_of_run h, hr, hattach]
  simp only [Machine.contract, hgas, if_true]
  rfl

/-- A run of the opcode for addition returns the address of the sum, charges three, and leaves the
sum in place of the two uppermost words. -/
theorem execute_add {context : Context} {i : PreparedInput} {e : Environment} {base : Nat}
    {below : List Nat} {a b : Nat}
    (henvironment : Contract.environment context.state context.account context.message = .ok e)
    (hgas : 3 ≤ context.message.gas) (hstack : ∀ w ∈ i.stack, w.length = Word.size)
    (hfits : i.stack.length * Word.size ≤ memorySize) (hbase : i.stack.length * Word.size ≤ base)
    (hmemory : ∀ w ∈ i.memory, w.1 + base + w.2.length ≤ memorySize)
    (hnumbers : i.stack.map Bytes.bigValue = below ++ [a, b]) (s : Contract) :
    ∃ c m sp, Dispatch.execute Machine.contract base
        (.compiled (module "ADD" [gasImport] [Addition.function])) context i "ADD" [] s =
      (.ok (some (Int64.ofNat (below.length * Word.size))),
        session c Addition.program e m sp []) ∧
      c.gasLeft = context.message.gas - 3 ∧ m.size = memorySize ∧
      m.slots 0 (below.length + 1) = below ++ [(a + b) % 2 ^ 256] := by
  have hlength : i.stack.length = below.length + 2 := by
    have h := congrArg List.length hnumbers
    rwa [List.length_map, List.length_append] at h
  have hle : (below.length + 2) * 32 ≤ 131072 := by
    rw [← hlength]
    exact hfits
  have hpointer : UInt32.ofInt (((i.stack.length : Int) - 1) * Word.size) =
      .ofNat ((below.length + 1) * 32) := by
    have hmod : (((below.length + 2 : Nat) : Int) - 1) * 32 % 2 ^ 32 =
        ((below.length + 1) * 32 : Nat) := by omega
    rw [hlength]
    exact congrArg UInt32.ofNat (congrArg Int.toNat hmod)
  -- the words are where the call looks for them
  have hslots := Dispatch.slots_primed hstack hbase
  rw [hnumbers, hlength] at hslots
  have hsize : (below.length + 2) * 32 ≤ (Dispatch.primed base i).size := by
    rw [Dispatch.size_primed]
    exact hle
  have hsmall : (Dispatch.primed base i).size ≤ 2 ^ 31 := by
    rw [Dispatch.size_primed]
    decide
  have hexecute := Dispatch.execute_session (s := s) linked_gasImport shipped_add.isValid
    (by decide) henvironment hstack hfits hmemory hpointer (Addition.call_add_slot hsize hsmall)
    (settle_session hgas)
  exact ⟨_, _, _, hexecute, rfl, by rw [Memory.size_overlay, Dispatch.size_primed],
    Addition.slots_overlay_sum hslots⟩

/-- A case of addition passes if and only if it expects the words below the two uppermost ones,
their sum modulo 2 to the 256, and no gas or the three that are charged. -/
theorem runCase_add {below : List Nat} {a b : Nat} (hop : c.op = "ADD") (hparams : c.params = [])
    (hbase : settings.memoryBase = Settings.defaultMemoryBase) (hgas : 3 ≤ settings.gas)
    (hinput : c.input.stack.map Hex.number = below ++ [a, b])
    (hstack : ∀ w ∈ c.input.stack, Word.IsSpelled w)
    (hfits : c.input.stack.length * Word.size ≤ Settings.defaultMemoryBase)
    (hmemory : ∀ w ∈ c.input.memory.entries, Word.IsSpelled w.2 ∧
      w.1 + Settings.defaultMemoryBase + Word.size ≤ memorySize)
    (hlength : c.output.stack.length + 1 = c.input.stack.length)
    (houtput : ∀ w ∈ c.output.stack, Word.IsSpelled w)
    (hnoMemory : c.output.memory = .empty) (hnoReturn : c.output.returned = none)
    (file : String) (s : Contract) :
    ((shipped settings).runCase file c s).1 = [] ↔
      c.output.stack.map Hex.number = below ++ [(a + b) % 2 ^ 256] ∧
        (c.output.gasUsed = none ∨ c.output.gasUsed = some 3) := by
  obtain ⟨context, i, hprepare, hmessage, henvironment, hwords, hnumbers, hplaces⟩ :=
    prepare_add hop hstack fun w hw => (hmemory w hw).1
  have hcount : i.stack.length = c.input.stack.length := by
    simpa using congrArg List.length hnumbers
  have hbelow : c.output.stack.length = below.length + 1 := by
    have h := congrArg List.length hinput
    rw [List.length_map, List.length_append, List.length_cons, List.length_singleton] at h
    omega
  have hle : c.input.stack.length * 32 ≤ 33832 := hfits
  have hinside : ∀ w ∈ i.memory, w.1 + settings.memoryBase + w.2.length ≤ memorySize := by
    intro w hw
    obtain ⟨hlen, v, hv, hoffset⟩ := hplaces w hw
    rw [hbase, hlen, ← hoffset]
    exact (hmemory v hv).2
  have hgas' : 3 ≤ context.message.gas := by rwa [hmessage]
  obtain ⟨d, m, sp, hexecute, hleft, hsize, hslots⟩ := execute_add henvironment hgas' hwords
    (by rw [hcount]; exact Nat.le_trans hfits (by decide)) (by rwa [hcount, hbase]) hinside
    (hnumbers.trans hinput) s
  have hexecute' : Dispatch.execute Machine.contract settings.memoryBase
      (.compiled (module "ADD" [gasImport] [Addition.function])) context i c.op c.params s =
      (.ok (some (Int64.ofNat (below.length * Word.size))),
        session d Addition.program (Context.visible c.environment) m sp []) := by
    rw [hop, hparams]
    exact hexecute
  have hleft' : (session d Addition.program (Context.visible c.environment) m sp []).gasLeft =
      context.message.gas - 3 := hleft
  -- what the run leaves is what the verdict reads
  have hobserve := observe_of_execute (r := shipped settings) rfl hexecute' rfl
    (by rw [hleft']; exact UInt64.sub_le hgas')
  have hused : context.message.gas - (context.message.gas - 3) = 3 := by grind
  rw [hleft', hused] at hobserve
  have hpointer : Verdict.stackPointerProblem?
      (some (Int64.ofNat (below.length * Word.size))) = none :=
    Verdict.stackPointerProblem?_slot (by omega)
  have hfitsOutput : c.output.stack.length * Word.size ≤ m.size := by
    rw [hsize]
    change c.output.stack.length * 32 ≤ 131072
    omega
  rw [runCase_of_observe hprepare hobserve, ← hslots, ← hbelow]
  exact Verdict.check_session shown?_program hpointer houtput hfitsOutput hnoMemory hnoReturn

/-- A case whose sum does not fit a word, with a word below and one in memory. -/
def wrapping : Case where
  op := "ADD"
  description := ""
  environment := CaseEnvironment.record.initial
  input := {
    stack := ["0x05", "0xffffffffffffffffffffffffffffffffffffffffffffffffffffffffffffffff", " 0X2 "]
    memory := Table.empty.insert 64 "abc" }
  params := []
  output := ⟨["5", "0x0001"], .empty, none, some 3⟩

theorem runCase_add_wrapping :
    ((shipped .default).runCase "add.json" wrapping (.new (.bytes []) .empty .zero)).1 = [] := by
  have hinput : wrapping.input.stack.map Hex.number = [5] ++ [2 ^ 256 - 1, 2] := by decide +kernel
  have hstack : ∀ w ∈ wrapping.input.stack, Word.IsSpelled w := by decide +kernel
  have hmemory : ∀ w ∈ wrapping.input.memory.entries, Word.IsSpelled w.2 ∧
      w.1 + Settings.defaultMemoryBase + Word.size ≤ memorySize := by decide +kernel
  have houtput : ∀ w ∈ wrapping.output.stack, Word.IsSpelled w := by decide +kernel
  have hpasses : wrapping.output.stack.map Hex.number = [5] ++ [(2 ^ 256 - 1 + 2) % 2 ^ 256] := by
    decide +kernel
  exact (runCase_add rfl rfl rfl (by decide) hinput hstack (by decide) hmemory rfl houtput rfl rfl
    "add.json" _).mpr ⟨hpasses, .inr rfl⟩

end Suite.Runner

end OpcodeConformance
