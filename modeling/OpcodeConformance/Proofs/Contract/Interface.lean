import OpcodeConformance.Contract.Interface
import OpcodeConformance.Proofs.Wasm.Simulation

namespace OpcodeConformance.Interface

open Wasm

/-- The host after an effect, if there is one. -/
def raised (host : HostState) : Option Effect → Except String HostState
  | none => .ok host
  | some e =>
    if host.isOpen then .ok { host with raised := host.raised ++ [e] }
    else .error s!"effect queue closed: {e.text}"

def fresh (v : View) : View := ⟨v.memory, ⟨v.host.environment, [], true⟩⟩

/-- The answer on a host to what a function answers on a fresh one: the effect that it raises there
is raised here. -/
def onHost (host : HostState) (x : Except String (List Value × View)) :
    Except String (List Value × View) := do
  let (results, w) ← x
  return (results, ⟨w.memory, ← raised host w.host.raised.head?⟩)

theorem onHost_ok (host : HostState) (results : List Value) (w : View) :
    onHost host (.ok (results, w)) =
      (raised host w.host.raised.head?).map fun h => (results, ⟨w.memory, h⟩) := by
  unfold onHost
  cases h : raised host w.host.raised.head? <;> simp only [h, bind, Except.bind] <;> rfl

/-- The function answers as it does on a fresh host, and raises the effect that it raises there. -/
def Reacts (h : HostFunction HostState) : Prop :=
  ∀ args v, h.run args v = onHost v.host (h.run args (fresh v))

@[simp] theorem memoryWith_fresh (v : View) (start len : Nat) :
    memoryWith (fresh v) start len = memoryWith v start len := rfl

@[simp] theorem host_fresh (v : View) : (fresh v).host.environment = v.host.environment := rfl

theorem onHost_write (v : View) (start : Nat) (bs : Bytes) :
    noResult (write v start bs) = onHost v.host (noResult (write (fresh v) start bs)) := by
  simp only [write, memoryWith_fresh]
  cases memoryWith v start bs.length <;> rfl

theorem onHost_callDataCopy (v : View) (target start len : Nat) :
    noResult (callDataCopy v target start len) =
      onHost v.host (noResult (callDataCopy (fresh v) target start len)) := by
  simp only [callDataCopy, memoryWith_fresh, host_fresh]
  cases memoryWith v target len <;> rfl

theorem onHost_getBlockHash (v : View) (number : UInt64) (target : Nat) :
    (do
      let (v, isKnown) ← getBlockHash v number target
      return ([Value.i32 (if isKnown then 0 else 1)], v)) = onHost v.host (do
        let (v, isKnown) ← getBlockHash (fresh v) number target
        return ([Value.i32 (if isKnown then 0 else 1)], v)) := by
  simp only [getBlockHash, host_fresh]
  cases v.host.environment.history with
  | none => rfl
  | some history =>
    simp only [write, memoryWith_fresh]
    cases memoryWith v target (history.blockHash number).length <;> rfl

theorem onHost_raiseEffect (v : View) (e : Effect) :
    noResult (raiseEffect v e) = onHost v.host (noResult (raiseEffect (fresh v) e)) := by
  change _ = onHost v.host (.ok ([], { fresh v with host := ⟨v.host.environment, [e], true⟩ }))
  simp only [onHost, raised, raiseEffect]
  split <;> rfl

theorem onHost_raisePayload (v : View) (effect : Bytes → Effect) (start len : Nat) :
    noResult (raisePayload v effect start len) =
      onHost v.host (noResult (raisePayload (fresh v) effect start len)) := by
  simp only [raisePayload, read, memoryWith_fresh]
  cases memoryWith v start len with
  | error e => rfl
  | ok m => exact onHost_raiseEffect v (effect (m.slice start len))

theorem onHost_useGas (v : View) (amount : Int64) :
    noResult (useGas v amount) = onHost v.host (noResult (useGas (fresh v) amount)) := by
  unfold useGas
  split
  · rfl
  · exact onHost_raiseEffect v (.useGas amount.toUInt64)

theorem reacts_writer (bytes : Environment → Bytes) : Reacts (writer bytes) := by
  intro args v
  simp only [writer]
  split
  · exact onHost_write v _ (bytes v.host.environment)
  · rfl

theorem reacts_stager (effect : Bytes → Effect) : Reacts (stager effect) := by
  intro args v
  simp only [stager]
  split
  · exact onHost_raisePayload v effect _ _
  · rfl

theorem reacts_ethereum {name : String} {h : HostFunction HostState}
    (hh : (name, h) ∈ ethereum) : Reacts h := by
  simp only [ethereum, List.mem_cons, List.not_mem_nil, or_false, Prod.mk.injEq] at hh
  rcases hh with ⟨-, rfl⟩ | ⟨-, rfl⟩ | ⟨-, rfl⟩ | ⟨-, rfl⟩ | ⟨-, rfl⟩ | ⟨-, rfl⟩ | ⟨-, rfl⟩ |
    ⟨-, rfl⟩ | ⟨-, rfl⟩ | ⟨-, rfl⟩
  · intro args v
    dsimp only
    split
    · exact onHost_useGas v _
    · rfl
  · exact reacts_writer _
  · exact reacts_writer _
  · exact reacts_writer _
  · exact fun _ _ => rfl
  · intro args v
    dsimp only
    split
    · exact onHost_callDataCopy v _ _ _
    · rfl
  · exact fun _ _ => rfl
  · intro args v
    dsimp only
    split
    · exact onHost_getBlockHash v _ _
    · rfl
  · exact reacts_stager _
  · exact reacts_stager _

theorem reacts_debug {name : String} {h : HostFunction HostState} (hh : (name, h) ∈ debug) :
    Reacts h := by
  simp only [debug, List.mem_cons, List.not_mem_nil, or_false, Prod.mk.injEq] at hh
  rcases hh with ⟨-, rfl⟩ | ⟨-, rfl⟩
  · exact fun _ _ => rfl
  · intro args v
    dsimp only
    split
    · simp only [read, memoryWith_fresh]
      cases memoryWith v _ _ <;> rfl
    · rfl

/-- Every function of the interface raises at most one effect, and what it does otherwise depends on
its arguments, the environment and the memory only. -/
theorem host_reacts {module name : String} {h : HostFunction HostState}
    (hh : host module name = some h) : Reacts h := by
  have hmem {fs : List (String × HostFunction HostState)} (h' : fs.lookup name = some h) :
      (name, h) ∈ fs := by
    obtain ⟨fs₁, fs₂, rfl, -⟩ := List.lookup_eq_some_iff.mp h'
    simp
  unfold host at hh
  split at hh
  · exact reacts_ethereum (hmem hh)
  · split at hh
    · exact reacts_debug (hmem hh)
    · cases hh

/-- Both hosts refuse the effect with one text, or both take it and stay related. -/
def TakesAlike (R : HostState → HostState → Prop) (x y : HostState) (e : Effect) : Prop :=
  match raised x (some e), raised y (some e) with
  | .ok x', .ok y' => R x' y'
  | .error t, .error t' => t = t'
  | _, _ => False

/-- If related hosts have one environment and take effects alike, every function of the interface
answers them alike. -/
theorem Reacts.respects {R : HostState → HostState → Prop}
    (henv : ∀ x y, R x y → x.environment = y.environment)
    (htake : ∀ x y e, R x y → TakesAlike R x y e) {h : HostFunction HostState} (hh : Reacts h) :
    h.Respects R := by
  intro args m x y hxy
  rw [hh args ⟨m, x⟩, hh args ⟨m, y⟩]
  -- from the fresh view on, both answers are the same until the effect is raised
  have hfresh : fresh ⟨m, x⟩ = fresh ⟨m, y⟩ := by simp only [fresh, henv x y hxy]
  rw [hfresh]
  cases h.run args (fresh ⟨m, y⟩) with
  | error e => exact rfl
  | ok answer =>
    obtain ⟨results, w⟩ := answer
    simp only [onHost_ok]
    cases w.host.raised.head? with
    | none => exact ⟨rfl, rfl, hxy⟩
    | some e =>
      have ht := htake x y e hxy
      unfold TakesAlike at ht
      cases hx : raised x (some e) <;> cases hy : raised y (some e) <;>
        simp only [hx, hy] at ht
      case error.error => exact ht
      case ok.ok => exact ⟨rfl, rfl, ht⟩

/-- The second host has raised what the first one has, behind what is in the log. -/
def Behind (log : List Effect) (x y : HostState) : Prop :=
  y = { x with raised := log ++ x.raised }

theorem Reacts.respects_behind (log : List Effect) {h : HostFunction HostState} (hh : Reacts h) :
    h.Respects (Behind log) := by
  refine hh.respects (fun x y hxy => by rw [hxy]) fun x y e hxy => ?_
  rw [hxy]
  unfold TakesAlike raised
  cases x.isOpen with
  | false => exact rfl
  | true => simp [Behind]

/-- Nothing is raised on a closed queue: the host stays as it is. -/
def Shut (host x y : HostState) : Prop := x = host ∧ y = host

theorem Reacts.respects_shut {host : HostState} (hclosed : host.isOpen = false)
    {h : HostFunction HostState} (hh : Reacts h) : h.Respects (Shut host) := by
  refine hh.respects (fun x y hxy => by rw [hxy.1, hxy.2]) fun x y e hxy => ?_
  rw [hxy.1, hxy.2]
  simp [TakesAlike, raised, hclosed]

variable {v : View} {m : Memory} {start len : Nat}

theorem memoryWith_of_le (hmemory : v.memory = some m) (h : start + len ≤ m.size) :
    memoryWith v start len = .ok m := by
  simp only [memoryWith, hmemory, if_pos h]

theorem memoryWith_of_lt (hmemory : v.memory = some m) (h : m.size < start + len) :
    ∃ reason, memoryWith v start len = .error reason := by
  simp only [memoryWith, hmemory, if_neg (Nat.not_le.mpr h)]
  exact ⟨_, rfl⟩

theorem write_of_le {bs : Bytes} (hmemory : v.memory = some m) (h : start + bs.length ≤ m.size) :
    write v start bs = .ok ⟨some (m.overlay start bs), v.host⟩ := by
  rw [write, memoryWith_of_le hmemory h]
  rfl

theorem write_of_lt {bs : Bytes} (hmemory : v.memory = some m) (h : m.size < start + bs.length) :
    ∃ reason, write v start bs = .error reason := by
  obtain ⟨reason, hreason⟩ := memoryWith_of_lt hmemory h
  exact ⟨reason, by rw [write, hreason]; rfl⟩

theorem callDataCopy_of_le {target : Nat} (hmemory : v.memory = some m)
    (h : target + len ≤ m.size) :
    callDataCopy v target start len =
      .ok ⟨some (m.overlay target (callDataSlice v.host.environment.callData start len)),
        v.host⟩ := by
  rw [callDataCopy, memoryWith_of_le hmemory h]
  rfl

theorem callDataCopy_of_lt {target : Nat} (hmemory : v.memory = some m)
    (h : m.size < target + len) : ∃ reason, callDataCopy v target start len = .error reason := by
  obtain ⟨reason, hreason⟩ := memoryWith_of_lt hmemory h
  exact ⟨reason, by rw [callDataCopy, hreason]; rfl⟩

theorem raiseEffect_of_isOpen (hopen : v.host.isOpen = true) (e : Effect) :
    raiseEffect v e = .ok ⟨v.memory, { v.host with raised := v.host.raised ++ [e] }⟩ := if_pos hopen

variable {effect : Bytes → Effect}

theorem raisePayload_of_le (hmemory : v.memory = some m) (hopen : v.host.isOpen = true)
    (h : start + len ≤ m.size) :
    raisePayload v effect start len =
      .ok { v with host := { v.host with
        raised := v.host.raised ++ [effect (m.slice start len)] } } := by
  have hread : read v start len = .ok (m.slice start len) := by
    rw [read, memoryWith_of_le hmemory h]
    rfl
  rw [raisePayload, hread, ← raiseEffect_of_isOpen hopen]
  rfl

theorem raisePayload_of_lt (hmemory : v.memory = some m) (h : m.size < start + len) :
    ∃ reason, raisePayload v effect start len = .error reason := by
  obtain ⟨reason, hreason⟩ := memoryWith_of_lt hmemory h
  exact ⟨reason, by rw [raisePayload, read, hreason]; rfl⟩

end OpcodeConformance.Interface
