import OpcodeConformance.Proofs.Contract.Interface
import OpcodeConformance.Proofs.Wasm.Execution

namespace OpcodeConformance

open Wasm

namespace Interface

variable {v : View} {m : Memory}

section Run

variable {start len : UInt32}

theorem run_writer_of_le (address : Environment → Address) (hmemory : v.memory = some m)
    (h : start.toNat + 20 ≤ m.size) :
    (writer fun e => (address e).bytes).run [.i32 start] v =
      .ok ([], ⟨some (m.overlay start.toNat (address v.host.environment).bytes), v.host⟩) := by
  have hwrite : write v start.toNat (address v.host.environment).bytes = _ :=
    write_of_le hmemory (by rw [Address.length_bytes]; exact h)
  simp only [writer, hwrite]
  rfl

theorem run_writer_of_lt (address : Environment → Address) (hmemory : v.memory = some m)
    (h : m.size < start.toNat + 20) :
    ∃ reason, (writer fun e => (address e).bytes).run [.i32 start] v = .error reason := by
  have hwrite : ∃ reason, write v start.toNat (address v.host.environment).bytes = .error reason :=
    write_of_lt hmemory (by rw [Address.length_bytes]; exact h)
  obtain ⟨reason, hreason⟩ := hwrite
  exact ⟨reason, by simp only [writer, hreason]; rfl⟩

theorem run_stager_of_le (effect : Bytes → Effect) (hmemory : v.memory = some m)
    (hopen : v.host.isOpen = true) (h : start.toNat + len.toNat ≤ m.size) :
    (stager effect).run [.i32 start, .i32 len] v =
      .ok ([], ⟨some m, { v.host with
        raised := v.host.raised ++ [effect (m.slice start.toNat len.toNat)] }⟩) := by
  have hpayload : raisePayload v effect start.toNat len.toNat = _ :=
    raisePayload_of_le hmemory hopen h
  simp only [stager, hpayload, hmemory]
  rfl

theorem run_stager_of_lt (effect : Bytes → Effect) (hmemory : v.memory = some m)
    (h : m.size < start.toNat + len.toNat) :
    ∃ reason, (stager effect).run [.i32 start, .i32 len] v = .error reason := by
  have hpayload : ∃ reason, raisePayload v effect start.toNat len.toNat = .error reason :=
    raisePayload_of_lt hmemory h
  obtain ⟨reason, hreason⟩ := hpayload
  exact ⟨reason, by simp only [stager, hreason]; rfl⟩

end Run

section BlockHash

variable {history : ChainHistory} {number : UInt64} {target : Nat}

theorem getBlockHash_of_le (hhistory : v.host.environment.history = some history)
    (hmemory : v.memory = some m) (h : target + 32 ≤ m.size) :
    getBlockHash v number target =
      .ok (⟨some (m.overlay target (history.blockHash number)), v.host⟩, true) := by
  have hwrite : write v target (history.blockHash number) = _ :=
    write_of_le hmemory (by rw [ChainHistory.blockHash, length_keccak256]; exact h)
  simp only [getBlockHash, hhistory, hwrite]
  rfl

theorem getBlockHash_of_lt (hhistory : v.host.environment.history = some history)
    (hmemory : v.memory = some m) (h : m.size < target + 32) :
    ∃ reason, getBlockHash v number target = .error reason := by
  have hwrite : ∃ reason, write v target (history.blockHash number) = .error reason :=
    write_of_lt hmemory (by rw [ChainHistory.blockHash, length_keccak256]; exact h)
  obtain ⟨reason, hreason⟩ := hwrite
  exact ⟨reason, by simp only [getBlockHash, hhistory, hreason]; rfl⟩

theorem getBlockHash_of_none (hhistory : v.host.environment.history = none) :
    getBlockHash v number target = .ok (v, false) := by
  simp only [getBlockHash, hhistory]

end BlockHash

/-- What code asks of the interface when it calls a function that writes bytes or raises an effect.
The addresses, lengths and numbers are the words that it passes. -/
inductive Request where
  | getAddress (target : UInt32)
  | getCaller (target : UInt32)
  | getBlockCoinbase (target : UInt32)
  | getBlockHash (number : UInt64) (target : UInt32)
  | finish (start len : UInt32)
  | revert (start len : UInt32)
  | useGas (amount : UInt64)
  deriving DecidableEq, Repr

namespace Request

def name : Request → String
  | getAddress _ => "getAddress"
  | getCaller _ => "getCaller"
  | getBlockCoinbase _ => "getBlockCoinbase"
  | getBlockHash _ _ => "getBlockHash"
  | finish _ _ => "return"
  | revert _ _ => "revert"
  | useGas _ => "useGas"

def args : Request → List Value
  | getAddress target | getCaller target | getBlockCoinbase target => [.i32 target]
  | getBlockHash number target => [.i64 number, .i32 target]
  | finish start len | revert start len => [.i32 start, .i32 len]
  | useGas amount => [.i64 amount]

/-- The range that the request needs is not inside the memory, or the amount is negative. -/
def IsRefused (e : Environment) (m : Memory) : Request → Prop
  | getAddress target | getCaller target | getBlockCoinbase target => m.size < target.toNat + 20
  | getBlockHash _ target => e.history.isSome ∧ m.size < target.toNat + 32
  | finish start len | revert start len => m.size < start.toNat + len.toNat
  | useGas amount => amount.toInt64 < 0

instance (e : Environment) (m : Memory) (r : Request) : Decidable (r.IsRefused e m) :=
  match r with
  | getAddress target => inferInstanceAs (Decidable (m.size < target.toNat + 20))
  | getCaller target => inferInstanceAs (Decidable (m.size < target.toNat + 20))
  | getBlockCoinbase target => inferInstanceAs (Decidable (m.size < target.toNat + 20))
  | getBlockHash _ target =>
    inferInstanceAs (Decidable (e.history.isSome ∧ m.size < target.toNat + 32))
  | finish start len => inferInstanceAs (Decidable (m.size < start.toNat + len.toNat))
  | revert start len => inferInstanceAs (Decidable (m.size < start.toNat + len.toNat))
  | useGas amount => inferInstanceAs (Decidable (amount.toInt64 < 0))

/-- The bytes that the request writes, and where. -/
def written? (e : Environment) : Request → Option (Nat × Bytes)
  | getAddress target => some (target.toNat, e.address.bytes)
  | getCaller target => some (target.toNat, e.caller.bytes)
  | getBlockCoinbase target => some (target.toNat, e.header.coinbase.bytes)
  | getBlockHash number target =>
    if e.history.isSome then
      some (target.toNat, keccak256 (Bytes.ofChars (Nat.toDigits 10 number.toNat)))
    else none
  | finish _ _ | revert _ _ | useGas _ => none

def effects (m : Memory) : Request → List Effect
  | finish start len => [.finish (m.slice start.toNat len.toNat)]
  | revert start len => [.revert (m.slice start.toNat len.toNat)]
  | useGas amount => [.useGas amount]
  | getAddress _ | getCaller _ | getBlockCoinbase _ | getBlockHash _ _ => []

def results (e : Environment) : Request → List Value
  | getBlockHash _ _ => [.i32 (if e.history.isSome then 0 else 1)]
  | getAddress _ | getCaller _ | getBlockCoinbase _ | finish _ _ | revert _ _ | useGas _ => []

def overlaid (e : Environment) (m : Memory) (r : Request) : Memory :=
  (r.written? e).elim m fun w => m.overlay w.1 w.2

variable {r : Request} {h : HostFunction HostState} {x : HostState}

theorem run_of_isRefused (hh : host "ethereum" r.name = some h) (hr : r.IsRefused x.environment m) :
    ∃ reason, h.run r.args ⟨some m, x⟩ = .error reason := by
  cases r with
  | getAddress target =>
    cases hh
    exact run_writer_of_lt (·.address) rfl hr
  | getCaller target =>
    cases hh
    exact run_writer_of_lt (·.caller) rfl hr
  | getBlockCoinbase target =>
    cases hh
    exact run_writer_of_lt (·.header.coinbase) rfl hr
  | getBlockHash number target =>
    cases hh
    obtain ⟨hknown, hlt⟩ := hr
    obtain ⟨history, hhistory⟩ := Option.isSome_iff_exists.mp hknown
    have hhash : ∃ reason, Interface.getBlockHash ⟨some m, x⟩ number target.toNat = .error reason :=
      getBlockHash_of_lt hhistory rfl hlt
    obtain ⟨reason, hreason⟩ := hhash
    exact ⟨reason, by simp only [args, hreason]; rfl⟩
  | finish start len =>
    cases hh
    exact run_stager_of_lt .finish rfl hr
  | revert start len =>
    cases hh
    exact run_stager_of_lt .revert rfl hr
  | useGas amount =>
    cases hh
    have hgas : ∃ reason, Interface.useGas ⟨some m, x⟩ amount.toInt64 = .error reason :=
      ⟨_, if_pos hr⟩
    obtain ⟨reason, hreason⟩ := hgas
    exact ⟨reason, by simp only [args, hreason]; rfl⟩

theorem run_of_not_isRefused (hh : host "ethereum" r.name = some h) (hopen : x.isOpen = true)
    (hr : ¬r.IsRefused x.environment m) :
    h.run r.args ⟨some m, x⟩ = .ok (r.results x.environment,
      ⟨some (r.overlaid x.environment m), { x with raised := x.raised ++ r.effects m }⟩) := by
  cases r with
  | getAddress target =>
    cases hh
    rw [effects, List.append_nil]
    exact run_writer_of_le (·.address) rfl (Nat.not_lt.mp hr)
  | getCaller target =>
    cases hh
    rw [effects, List.append_nil]
    exact run_writer_of_le (·.caller) rfl (Nat.not_lt.mp hr)
  | getBlockCoinbase target =>
    cases hh
    rw [effects, List.append_nil]
    exact run_writer_of_le (·.header.coinbase) rfl (Nat.not_lt.mp hr)
  | getBlockHash number target =>
    cases hh
    rw [effects, List.append_nil]
    cases hhistory : x.environment.history with
    | none =>
      have hhash : Interface.getBlockHash ⟨some m, x⟩ number target.toNat = _ :=
        getBlockHash_of_none hhistory
      simp only [args, hhash, results, overlaid, written?, hhistory]
      rfl
    | some history =>
      have hle : target.toNat + 32 ≤ m.size :=
        Nat.not_lt.mp fun hlt => hr ⟨by rw [hhistory]; rfl, hlt⟩
      have hhash : Interface.getBlockHash ⟨some m, x⟩ number target.toNat = _ :=
        getBlockHash_of_le hhistory rfl hle
      simp only [args, hhash, results, overlaid, written?, hhistory]
      rfl
  | finish start len =>
    cases hh
    exact run_stager_of_le .finish rfl hopen (Nat.not_lt.mp hr)
  | revert start len =>
    cases hh
    exact run_stager_of_le .revert rfl hopen (Nat.not_lt.mp hr)
  | useGas amount =>
    cases hh
    have hgas : Interface.useGas ⟨some m, x⟩ amount.toInt64 = _ :=
      (if_neg hr).trans (raiseEffect_of_isOpen hopen _)
    simp only [args, hgas]
    rfl

theorem effects_of_written? {e : Environment} {w : Nat × Bytes} (hw : r.written? e = some w) :
    r.effects m = [] := by
  cases r with
  | getAddress | getCaller | getBlockCoinbase | getBlockHash => rfl
  | finish | revert | useGas => cases hw

theorem overlaid_of_written? {e : Environment} {target : Nat} {bs : Bytes}
    (hw : r.written? e = some (target, bs)) :
    (r.overlaid e m).slice target bs.length = bs ∧
      (r.overlaid e m).AgreeOutside m target bs.length := by
  have hoverlaid : r.overlaid e m = m.overlay target bs := by rw [overlaid, hw]; rfl
  rw [hoverlaid]
  exact ⟨Memory.slice_overlay_self m target bs,
    Memory.agreeOutside_overlay m (Nat.le_refl _) (Nat.le_refl _)⟩

end Request

section CallData

variable {data : Bytes} {start len j : Nat}

/-- Both bounds are inside the call data, in order, and no further apart than the range is long. -/
theorem callDataBounds_le (data : Bytes) (start len : Nat) :
    let (first, last) := callDataBounds data start len
    first ≤ last ∧ last ≤ data.length ∧ last - first ≤ len := by
  simp only [callDataBounds]
  omega

@[simp] theorem length_callDataSlice (data : Bytes) (start len : Nat) :
    (callDataSlice data start len).length = len := by
  have hbounds := callDataBounds_le data start len
  simp only [callDataSlice, List.length_append, List.length_take, List.length_drop,
    List.length_replicate]
  omega

theorem getD_callDataSlice (hj : j < len) :
    (callDataSlice data start len).getD j 0 = data.getD (start + j) 0 := by
  simp only [callDataSlice, callDataBounds, List.getD_eq_getElem?_getD]
  by_cases hinside : start + j < data.length
  · have hfirst : min start data.length = start := by omega
    rw [hfirst, List.getElem?_append_left (by simp; omega), List.getElem?_take_of_lt (by omega),
      List.getElem?_drop]
  · rw [List.getElem?_append_right (by simp; omega), List.getElem?_replicate,
      List.getElem?_eq_none (l := data) (by omega)]
    split <;> rfl

variable {h : HostFunction HostState} {x : HostState} {target start len : UInt32}

theorem run_callDataCopy_of_le (hh : host "ethereum" "callDataCopy" = some h)
    (hle : target.toNat + len.toNat ≤ m.size) :
    h.run [.i32 target, .i32 start, .i32 len] ⟨some m, x⟩ = .ok ([],
      ⟨some (m.overlay target.toNat
        (callDataSlice x.environment.callData start.toNat len.toNat)), x⟩) := by
  cases hh
  have hcopy : callDataCopy ⟨some m, x⟩ target.toNat start.toNat len.toNat = _ :=
    callDataCopy_of_le rfl hle
  simp only [hcopy]
  rfl

theorem run_callDataCopy_of_lt (hh : host "ethereum" "callDataCopy" = some h)
    (hlt : m.size < target.toNat + len.toNat) :
    ∃ reason, h.run [.i32 target, .i32 start, .i32 len] ⟨some m, x⟩ = .error reason := by
  cases hh
  have hcopy : ∃ reason,
      callDataCopy ⟨some m, x⟩ target.toNat start.toNat len.toNat = .error reason :=
    callDataCopy_of_lt rfl hlt
  obtain ⟨reason, hreason⟩ := hcopy
  exact ⟨reason, by simp only [hreason]; rfl⟩

end CallData

end Interface

open Interface

variable {p : Program HostState} {s : Store HostState} {m : Memory} {k i : Nat}

/-- A request of code that shows a memory, with an open queue, is refused and changes nothing, or it
writes its bytes and nothing beside them, or it raises its effect and writes nothing. -/
theorem request_changes_all_or_nothing {r : Request} (hk : p.shown? = some k)
    (hm : s.memories[k]? = some m) (hopen : s.host.isOpen = true)
    (hi : p.imports[i]? = host "ethereum" r.name) (depth room : Nat) :
    let e := s.host.environment
    let answer := p.callWithin (depth + 1) room i r.args s
    (r.IsRefused e m → ∃ reason, answer = .traps (.host reason) s) ∧
    (¬r.IsRefused e m → ∃ m', answer = .ends (r.results e, { s.withMemory k m' with
        host := { s.host with raised := s.host.raised ++ r.effects m } }) ∧
      (r.written? e = none → m' = m) ∧
      ∀ target bs, r.written? e = some (target, bs) →
        r.effects m = [] ∧ m'.slice target bs.length = bs ∧
          m'.AgreeOutside m target bs.length) := by
  intro e answer
  have hview : p.view s = ⟨some m, s.host⟩ := Program.view_of_shown hk hm
  obtain ⟨h, hh⟩ : ∃ h, host "ethereum" r.name = some h := by cases r <;> exact ⟨_, rfl⟩
  refine ⟨fun hr => ?_, fun hr => ⟨r.overlaid e m, ?_, fun hw => ?_, fun target bs hw => ⟨?_, ?_⟩⟩⟩
  · obtain ⟨reason, hreason⟩ := Request.run_of_isRefused hh hr
    exact ⟨reason, Program.callWithin_import_of_error (hi.trans hh) (hview ▸ hreason)⟩
  · have hrun : h.run r.args (p.view s) = _ := hview ▸ Request.run_of_not_isRefused hh hopen hr
    have hanswer : answer = _ := Program.callWithin_import_of_ok (hi.trans hh) hrun
    rwa [Program.update_of_shown hk] at hanswer
  · rw [Request.overlaid, hw]
    rfl
  · exact Request.effects_of_written? hw
  · exact Request.overlaid_of_written? hw

/-- A module that shows its only memory and imports one function of the interface. -/
def importer (name : String) (h : HostFunction HostState) : Program HostState where
  module := {
    imports := [⟨"ethereum", name, .function h.type⟩]
    functions := []
    memories := [⟨1, none, false, false⟩]
    globals := []
    exports := [⟨Program.memoryName, .memory 0⟩]
    starts := []
    segments := [] }
  imports := [h]
  stackUses := []

/-- The store of such a module in the call of a sender with three bytes, on a chain without a
history. -/
def importerStore : Store HostState where
  memories := [.zeros 65536]
  globals := []
  host := ⟨⟨.zero, ⟨(List.range 20).map UInt8.ofNat, by decide⟩, [1, 2, 3], .initial, none⟩, [],
    true⟩

/-- The sender, written at the very end of the memory, and one byte behind that. -/
theorem request_changes_all_or_nothing_at_end :
    let p := importer "getCaller" (writer fun e => e.caller.bytes)
    (∃ m', p.callWithin 1 0 0 [.i32 65516] importerStore =
        .ends ([], importerStore.withMemory 0 m') ∧
      m'.slice 65516 20 = (List.range 20).map UInt8.ofNat) ∧
    ∃ reason, p.callWithin 1 0 0 [.i32 65517] importerStore =
      .traps (.host reason) importerStore := by
  intro p
  have hrefused := (request_changes_all_or_nothing (r := .getCaller 65517) (p := p)
    (s := importerStore) (i := 0) rfl rfl rfl rfl 0 0).1 (by decide)
  have hgranted := (request_changes_all_or_nothing (r := .getCaller 65516) (p := p)
    (s := importerStore) (i := 0) rfl rfl rfl rfl 0 0).2 (by decide)
  obtain ⟨m', hcall, -, hwritten⟩ := hgranted
  exact ⟨⟨m', hcall, (hwritten _ _ rfl).2.1⟩, hrefused⟩

/-- A copy of call data is exact wherever it begins, if its target is inside the memory; otherwise
it is refused and changes nothing. The bounds between which it reads are always those of a part of
the data. -/
theorem callDataCopy_exact (hk : p.shown? = some k) (hm : s.memories[k]? = some m)
    (hi : p.imports[i]? = host "ethereum" "callDataCopy") (target start len : UInt32)
    (depth room : Nat) :
    let data := s.host.environment.callData
    let answer := p.callWithin (depth + 1) room i [.i32 target, .i32 start, .i32 len] s
    (target.toNat + len.toNat ≤ m.size → ∃ m', answer = .ends ([], s.withMemory k m') ∧
      (∀ j < len.toNat, m'.byte (target.toNat + j) = data.getD (start.toNat + j) 0) ∧
      m'.AgreeOutside m target.toNat len.toNat) ∧
    (m.size < target.toNat + len.toNat → ∃ reason, answer = .traps (.host reason) s) ∧
    let (first, last) := callDataBounds data start.toNat len.toNat
    first ≤ last ∧ last ≤ data.length ∧ last - first ≤ len.toNat := by
  intro data answer
  have hview : p.view s = ⟨some m, s.host⟩ := Program.view_of_shown hk hm
  obtain ⟨h, hh⟩ : ∃ h, host "ethereum" "callDataCopy" = some h := ⟨_, rfl⟩
  refine ⟨fun hle => ⟨m.overlay target.toNat (callDataSlice data start.toNat len.toNat), ?_,
    fun j hj => ?_, ?_⟩, fun hlt => ?_, callDataBounds_le data start.toNat len.toNat⟩
  · have hrun : h.run [.i32 target, .i32 start, .i32 len] (p.view s) = _ :=
      hview ▸ run_callDataCopy_of_le hh hle
    have hanswer : answer = _ := Program.callWithin_import_of_ok (hi.trans hh) hrun
    rwa [Program.update_of_shown hk] at hanswer
  · rw [Memory.byte_overlay, length_callDataSlice, if_pos (by omega), Nat.add_sub_cancel_left]
    exact getD_callDataSlice hj
  · exact Memory.agreeOutside_overlay m (Nat.le_refl _) (by rw [length_callDataSlice])
  · have hrun : ∃ reason, h.run [.i32 target, .i32 start, .i32 len] (p.view s) = .error reason :=
      hview ▸ run_callDataCopy_of_lt hh hlt
    obtain ⟨reason, hreason⟩ := hrun
    exact ⟨reason, Program.callWithin_import_of_error (hi.trans hh) hreason⟩

/-- A copy that begins at the last byte of the call data and ends with the memory, and one that
would not. -/
theorem callDataCopy_exact_at_end :
    ∃ h, host "ethereum" "callDataCopy" = some h ∧
      (∃ m', (importer "callDataCopy" h).callWithin 1 0 0 [.i32 65533, .i32 2, .i32 3]
          importerStore = .ends ([], importerStore.withMemory 0 m') ∧
        m'.byte 65533 = 3 ∧ m'.byte 65535 = 0) ∧
      ∃ reason, (importer "callDataCopy" h).callWithin 1 0 0 [.i32 65533, .i32 2, .i32 4]
        importerStore = .traps (.host reason) importerStore := by
  obtain ⟨h, hh⟩ : ∃ h, host "ethereum" "callDataCopy" = some h := ⟨_, rfl⟩
  have hcopied := (callDataCopy_exact (p := importer "callDataCopy" h) (s := importerStore)
    (i := 0) rfl rfl hh.symm 65533 2 3 0 0).1 (by decide)
  have hrefused := (callDataCopy_exact (p := importer "callDataCopy" h) (s := importerStore)
    (i := 0) rfl rfl hh.symm 65533 2 4 0 0).2.1 (by decide)
  obtain ⟨m', hcall, hbytes, -⟩ := hcopied
  exact ⟨h, hh, ⟨m', hcall, hbytes 0 (by decide), hbytes 2 (by decide)⟩, hrefused⟩

end OpcodeConformance
