import OpcodeConformance.Proofs.Contract.Runs
import OpcodeConformance.Proofs.Dispatch
import OpcodeConformance.Proofs.Expectation

namespace OpcodeConformance

namespace Machine

variable {κ ω : Type} {m : Machine κ ω} {view : ω → Option FlatMemory} {f : FlatMemory} {s : ω}

def writeRequests (ws : List (Nat × Bytes)) : List (Request κ) := ws.map fun w => .write w.1 w.2

/-- Byte strings that all fit are written one after the other. -/
theorem IsFlat.writeRequests (hm : m.IsFlat view) (hs : view s = some f) {ws : List (Nat × Bytes)}
    (hfit : ∀ w ∈ ws, w.1 + w.2.length ≤ f.size) :
    m.Accepts (Machine.writeRequests ws) s ∧
      view (m.after (Machine.writeRequests ws) s) = some (f.placed ws) := by
  induction ws generalizing s f with
  | nil => exact ⟨fun j r h => (nomatch h), hs⟩
  | cons w ws ih =>
    obtain ⟨hanswer, hview⟩ := hm.write hs w.1 w.2
    rw [FlatMemory.write?_of_le (hfit w (.head _))] at hanswer hview
    obtain ⟨haccepts, hplaced⟩ := ih hview fun v hv => hfit v (.tail _ hv)
    have hok : (m.perform (.write w.1 w.2) s).1.isOk = true := by
      rw [perform, Action.withoutValue]
      cases hrun : (m.write w.1 w.2 s).1 with
      | error e =>
        rw [hrun] at hanswer
        cases hanswer
      | ok a => rfl
    exact ⟨accepts_cons.mpr ⟨hok, haccepts⟩, hplaced⟩

theorem ask_append_of_accepts {rs : List (Request κ)} (h : m.Accepts rs s) (value : Option Int64)
    (rs' : List (Request κ)) :
    ∃ value', m.ask value (rs ++ rs') s = m.ask value' rs' (m.after rs s) := by
  induction rs generalizing value s with
  | nil => exact ⟨value, rfl⟩
  | cons r rs ih =>
    obtain ⟨hr, hrs⟩ := accepts_cons.mp h
    obtain ⟨a, ha⟩ := Results.isOk_iff.mp hr
    have hrun : (m.perform r).mapError HarnessError.ofFault s = (.ok a, (m.perform r s).2) :=
      Action.mapError_of_ok (Prod.ext ha rfl)
    rw [List.cons_append, ask, Action.bind_of_ok hrun]
    exact ih hrs _

end Machine

namespace Dispatch

/-- What is written for the words of the stack, the first of them into slot `k`. -/
def stackWrites (k : Nat) (ws : List Bytes) : List (Nat × Bytes) :=
  (ws.zipIdx k).map fun w => (w.2 * Word.size, Word.memoryOrder w.1)

def memoryWrites (base : Nat) (ws : List (Nat × Bytes)) : List (Nat × Bytes) :=
  ws.map fun w => (w.1 + base, Word.memoryOrder w.2)

/-- What is written before the opcode is called: the words of the stack by their indices, and then
those of the memory by their offsets. -/
def writes (base : Nat) (i : PreparedInput) : List (Nat × Bytes) :=
  stackWrites 0 i.stack ++ memoryWrites base i.memory

theorem stackWrites_cons (k : Nat) (w : Bytes) (ws : List Bytes) :
    stackWrites k (w :: ws) = (k * Word.size, Word.memoryOrder w) :: stackWrites (k + 1) ws := by
  rw [stackWrites, List.zipIdx_cons, List.map_cons]
  rfl

theorem memoryWrites_cons (base offset : Nat) (w : Bytes) (ws : List (Nat × Bytes)) :
    memoryWrites base ((offset, w) :: ws) =
      (offset + base, Word.memoryOrder w) :: memoryWrites base ws := rfl

theorem le_of_mem_stackWrites {k : Nat} {ws : List Bytes} {w : Nat × Bytes}
    (h : w ∈ stackWrites k ws) : k * Word.size ≤ w.1 := by
  obtain ⟨⟨v, i⟩, hmem, rfl⟩ := List.mem_map.mp h
  exact Nat.mul_le_mul_right _ (List.le_snd_of_mem_zipIdx hmem)

section

variable {κ ω : Type} {base : Nat} {i : PreparedInput} {input : CaseInput}

theorem mem_stackWrites {k : Nat} {w : Bytes} (h : i.stack[k]? = some w) :
    (k * Word.size, Word.memoryOrder w) ∈ stackWrites 0 i.stack :=
  List.mem_map.mpr ⟨(w, k), List.mem_zipIdx_iff_getElem?.mpr h, rfl⟩

theorem mem_memoryWrites {offset : Nat} {w : Bytes} (h : (offset, w) ∈ i.memory) :
    (offset + base, Word.memoryOrder w) ∈ memoryWrites base i.memory :=
  List.mem_map.mpr ⟨(offset, w), h, rfl⟩

theorem pairwise_stackWrites {k : Nat} {ws : List Bytes} (h : ∀ w ∈ ws, w.length = Word.size) :
    (stackWrites k ws).Pairwise fun v w => v.1 + v.2.length ≤ w.1 := by
  induction ws generalizing k with
  | nil => exact .nil
  | cons w ws ih =>
    rw [stackWrites_cons, List.pairwise_cons]
    refine ⟨fun v hv => ?_, ih fun v hv => h v (.tail _ hv)⟩
    change k * Word.size + (Word.memoryOrder w).length ≤ v.1
    rw [Word.length_memoryOrder, h w (.head _)]
    exact Nat.le_trans (Word.slot_end_le (Nat.lt_succ_self k)) (le_of_mem_stackWrites hv)

/-- No word is written over another if the memory begins behind the stack and its offsets leave
room for a word. -/
theorem pairwise_writes (hi : PreparedInput.ofInput input = .ok i)
    (hbase : input.stack.length * Word.size ≤ base)
    (hapart : ∀ a ∈ input.memory.keys, ∀ b ∈ input.memory.keys, a < b → a + Word.size ≤ b) :
    (writes base i).Pairwise fun v w => v.1 + v.2.length ≤ w.1 := by
  rw [(PreparedInput.ofInput_eq_ok_iff.mp hi).1.length_eq] at hbase
  refine List.pairwise_append.mpr ⟨?_, ?_, ?_⟩
  · exact pairwise_stackWrites fun w => PreparedInput.length_of_mem_stack hi
  · refine List.pairwise_map.mpr ((PreparedInput.ascending_of_ofInput hi).imp_of_mem ?_)
    intro v w hv hw hlt
    have hkey : ∀ x ∈ i.memory, x.1 ∈ input.memory.keys := fun x hx =>
      PreparedInput.keys_of_ofInput hi ▸ List.mem_map_of_mem hx
    have hle := hapart v.1 (hkey v hv) w.1 (hkey w hw) hlt
    rw [Word.length_memoryOrder, PreparedInput.length_of_mem_memory hi hv]
    omega
  · intro v hv w hw
    obtain ⟨⟨word, k⟩, hword, rfl⟩ := List.mem_map.mp hv
    obtain ⟨x, -, rfl⟩ := List.mem_map.mp hw
    have hk := List.mem_zipIdx_iff_getElem?.mp hword
    have hslot : k * Word.size + Word.size ≤ i.stack.length * Word.size :=
      Word.slot_end_le (List.getElem?_eq_some_iff.mp hk).1
    rw [Word.length_memoryOrder, PreparedInput.length_of_mem_stack hi (List.mem_of_getElem? hk)]
    change k * Word.size + Word.size ≤ x.1 + base
    omega

def opening (code : κ) (c : Context) (i : PreparedInput) : List (Request κ) :=
  [.create code c.state c.account, .receive c.message, .attach,
    .call setterName [stackPointer i.stack.length]]

theorem preparation_eq (base : Nat) (code : κ) (c : Context) (i : PreparedInput) :
    preparation base code c i = opening code c i ++ Machine.writeRequests (writes base i) := by
  have hstack : Machine.writeRequests (κ := κ) (stackWrites 0 i.stack) = stackRequests i.stack := by
    rw [Machine.writeRequests, stackWrites, stackRequests, List.map_map]
    apply List.map_congr_left
    intro w _
    exact congrArg (Request.write · _) (Nat.mul_comm _ _)
  have hmemory : Machine.writeRequests (κ := κ) (memoryWrites base i.memory) =
      memoryRequests base i.memory := by
    rw [Machine.writeRequests, memoryWrites, memoryRequests, List.map_map]
    rfl
  rw [preparation, ← hstack, ← hmemory, Machine.writeRequests, Machine.writeRequests,
    ← List.map_append]
  rfl

/-- The end of a run, behind the writes: the opcode is called, and its effects are awaited. -/
def conclude (m : Machine κ ω) (op : String) (params : List Int64) :
    Action HarnessError ω (Option Int64) := do
  let result ← (m.call op params).mapError .ofFault
  m.settle.mapError .ofFault
  return result

theorem ask_conclude (m : Machine κ ω) (value : Option Int64) (op : String) (params : List Int64) :
    m.ask value [.call op params, .settle] = conclude m op params := by
  simp only [Machine.ask, Machine.perform, mapError_withoutValue, bind_map_left]
  rfl

theorem execute_of_preparation {m : Machine κ ω} {code : κ} {c : Context} {s : ω}
    (h : m.Accepts (preparation base code c i) s) (op : String) (params : List Int64) :
    execute m base code c i op params s =
      conclude m op params (m.after (preparation base code c i) s) := by
  obtain ⟨value, hask⟩ := Machine.ask_append_of_accepts h none [.call op params, .settle]
  rw [execute_eq_ask, requests, hask, ask_conclude]

variable {m : Machine κ ω} {view : ω → Option FlatMemory} {f : FlatMemory} {code : κ} {c : Context}
  {s : ω}

/-- Where a word was written, and nothing over it, an expected word is met if it spells the same
number. -/
theorem isMet_of_written {ws : List (Nat × Bytes)} (hfit : ∀ w ∈ ws, w.1 + w.2.length ≤ f.size)
    (hpairwise : ws.Pairwise fun v w => v.1 + v.2.length ≤ w.1) {address : Nat}
    {actual expected : String} {word : Bytes} (hword : Word.ofHex actual Word.size = .ok word)
    (hmem : (address, Word.memoryOrder word) ∈ ws) (field : Field) :
    (Expectation.mk field expected address).IsMet (f.placed ws) ↔
      Word.IsSpelled expected ∧ Hex.number expected = Hex.number actual := by
  obtain ⟨hlength, hnumber⟩ := Word.ofHex_eq_ok hword
  have hsize : (Word.memoryOrder word).length = Word.size := by
    rw [Word.length_memoryOrder, hlength]
  have hslice := f.slice_placed_of_pairwise hpairwise hmem
  have hinside := hfit _ hmem
  dsimp only at hslice hinside
  rw [hsize] at hslice hinside
  have hvalue : Bytes.littleValue ((f.placed ws).slice address Word.size) =
      Hex.number actual := by
    rw [hslice, ← hnumber]
    rfl
  constructor
  · rintro ⟨hspelled, -, hequal⟩
    exact ⟨hspelled, hequal.trans hvalue⟩
  · rintro ⟨hspelled, hequal⟩
    exact ⟨hspelled, by rwa [FlatMemory.size_placed], hequal.trans hvalue.symm⟩

/-- When an opcode is called on a flat memory, every byte of it is the one of the last write that
covers its address, and is as before if no write does: first the words of the stack are written by
their indices, then those of the memory by their offsets. If no word is written over another, and
the opcode leaves the memory alone, then a verdict finds fault with exactly those expected words in
the places of the input that spell another number than the input does there, or none. -/
theorem priming_agrees_with_verdict (hm : m.IsFlat view)
    (hi : PreparedInput.ofInput input = .ok i) (hopening : m.Accepts (opening code c i) s)
    (hf : view (m.after (opening code c i) s) = some f)
    (hfit : ∀ w ∈ writes base i, w.1 + w.2.length ≤ f.size) :
    ∃ g, view (m.after (preparation base code c i) s) = some g ∧ g.size = f.size ∧
      (∀ op params, execute m base code c i op params s =
        conclude m op params (m.after (preparation base code c i) s)) ∧
      i.memory.Pairwise (fun a b => a.1 < b.1) ∧
      (∀ a, (∀ w ∈ writes base i, ¬FlatMemory.Covers w a) → g.byte a = f.byte a) ∧
      (∀ a earlier w later, writes base i = earlier ++ w :: later → FlatMemory.Covers w a →
        (∀ v ∈ later, ¬FlatMemory.Covers v a) → w.2[a - w.1]? = some (g.byte a)) ∧
      (input.stack.length * Word.size ≤ base →
        (∀ a ∈ input.memory.keys, ∀ b ∈ input.memory.keys, a < b → a + Word.size ≤ b) →
        ∀ u, view u = some g → ∀ file case o,
          let failures := (Verdict.check m base file case o u).1
          (∀ k actual, input.stack[k]? = some actual →
            ((∃ x ∈ failures, x.field = .stack k) ↔
              ∃ expected, case.output.stack[k]? = some expected ∧
                (Word.IsSpelled expected → Hex.number expected ≠ Hex.number actual))) ∧
          (∀ offset actual, (offset, actual) ∈ input.memory.entries →
            ((∃ x ∈ failures, x.field = .memory offset) ↔
              ∃ expected, (offset, expected) ∈ case.output.memory.entries ∧
                (Word.IsSpelled expected → Hex.number expected ≠ Hex.number actual)))) := by
  obtain ⟨hwrites, hview⟩ := hm.writeRequests hf hfit
  have haccepts : m.Accepts (preparation base code c i) s := by
    rw [preparation_eq]
    exact Machine.accepts_append.mpr ⟨hopening, hwrites⟩
  obtain ⟨hstack, hmemory⟩ := PreparedInput.ofInput_eq_ok_iff.mp hi
  refine ⟨f.placed (writes base i), ?_, f.size_placed _, execute_of_preparation haccepts,
    PreparedInput.ascending_of_ofInput hi, fun a => FlatMemory.byte_placed_of_not_covers, ?_, ?_⟩
  · rw [preparation_eq, Machine.after_append, hview]
  · intro a earlier w later heq hcovers hlater
    rw [heq]
    exact FlatMemory.byte_placed_of_last hcovers hlater
  · intro hbase hapart u hu file case o failures
    have hpairwise := pairwise_writes hi hbase hapart
    constructor
    · intro k actual hk
      obtain ⟨word, hword, hspells⟩ := Results.exists_getElem?_of_forall₂ hstack hk
      rw [Verdict.exists_failure_iff hm hu (by simp) (by simp) (by simp),
        Verdict.exists_stack_expectation]
      have hmem : (k * Word.size, Word.memoryOrder word) ∈ writes base i :=
        List.mem_append_left _ (mem_stackWrites hword)
      simp only [isMet_of_written hfit hpairwise hspells hmem, not_and]
    · intro offset actual hentry
      obtain ⟨⟨_, word⟩, hword, rfl, hspells⟩ := Results.exists_mem_of_forall₂ hmemory hentry
      rw [Verdict.exists_failure_iff hm hu (by simp) (by simp) (by simp),
        Verdict.exists_memory_expectation]
      have hmem : (offset + base, Word.memoryOrder word) ∈ writes base i :=
        List.mem_append_right _ (mem_memoryWrites hword)
      simp only [isMet_of_written hfit hpairwise hspells hmem, not_and]

/-- Code with an opcode that does nothing. -/
def idleModule : Wasm.Module where
  imports := []
  functions := [⟨⟨[.i32], []⟩, [], .done⟩, ⟨⟨[], []⟩, [], .done⟩]
  memories := [⟨1, none, false, false⟩]
  globals := []
  exports := [⟨"memory", .memory 0⟩, ⟨setterName, .function 0⟩, ⟨"IDLE", .function 1⟩]
  starts := []
  segments := []

def idleCase : Case where
  op := "IDLE"
  description := ""
  environment := CaseEnvironment.record.initial
  input := ⟨["0x0102", "3"], Table.empty.insert 32 "abc"⟩
  params := []
  output := ⟨["102", " 0X4 "], Table.empty.insert 32 "0x0ABC", none, none⟩

/-- A case of the idle opcode fails about the one slot where it expects another word. -/
theorem priming_agrees_with_verdict_idle :
    let c : Context := ⟨⟨.zero, [], 0⟩, .withCoinbase .zero, meterState, .zero⟩
    let i : PreparedInput := ⟨[List.replicate 30 0 ++ [1, 2], List.replicate 31 0 ++ [3]],
      [(32, List.replicate 30 0 ++ [0x0a, 0xbc])]⟩
    let t := Machine.contract.after (preparation 64 (.compiled idleModule) c i)
      (.new (.bytes []) .empty .zero)
    ∃ g, t.view = some g ∧ g.byte 0 = 2 ∧
      ∀ u : Contract, u.view = some g → ∀ file o,
        let failures := (Verdict.check Machine.contract 64 file idleCase o u).1
        (¬∃ x ∈ failures, x.field = .stack 0) ∧ (∃ x ∈ failures, x.field = .stack 1) ∧
          ¬∃ x ∈ failures, x.field = .memory 32 := by
  intro c i t
  have hi : PreparedInput.ofInput idleCase.input = .ok i := by rfl
  have hopening : Machine.contract.Accepts (opening (.compiled idleModule) c i)
      (.new (.bytes []) .empty .zero) :=
    Machine.accepts_cons.mpr ⟨rfl, Machine.accepts_cons.mpr ⟨by decide +kernel,
      Machine.accepts_cons.mpr ⟨by decide +kernel, Machine.accepts_cons.mpr ⟨by decide +kernel,
        fun j r h => nomatch h⟩⟩⟩⟩
  have hsize : (Contract.view (Machine.contract.after (opening (.compiled idleModule) c i)
      (.new (.bytes []) .empty .zero))).map FlatMemory.size = some 65536 := by decide +kernel
  obtain ⟨f, hf, hsize⟩ := Option.map_eq_some_iff.mp hsize
  have hfit : ∀ w ∈ writes 64 i, w.1 + w.2.length ≤ f.size := by
    rw [hsize]
    decide
  obtain ⟨g, hg, -, -, -, -, hlast, hjudged⟩ :=
    priming_agrees_with_verdict isFlat_contract hi hopening hf hfit
  refine ⟨g, hg, ?_, fun u hu file o => ?_⟩
  · exact (Option.some.inj (hlast 0 [] _ _ rfl (by decide) (by decide))).symm
  · obtain ⟨hstack, hmemory⟩ := hjudged (by decide) (by decide) u hu file idleCase o
    refine ⟨(hstack 0 "0x0102" rfl).not.mpr ?_, (hstack 1 "3" rfl).mpr ?_,
      (hmemory 32 "abc" (by decide)).not.mpr ?_⟩
    · rintro ⟨_, ⟨⟩, h⟩
      exact h (by decide +kernel) (by decide +kernel)
    · exact ⟨" 0X4 ", rfl, fun _ => by decide +kernel⟩
    · rintro ⟨expected, hmem, h⟩
      change (32, expected) ∈ [(32, "0x0ABC")] at hmem
      cases List.mem_singleton.mp hmem
      exact h (by decide +kernel) (by decide +kernel)

end

end Dispatch

end OpcodeConformance
