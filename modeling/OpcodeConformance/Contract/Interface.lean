import OpcodeConformance.Block
import OpcodeConformance.Contract.Effect
import OpcodeConformance.Wasm.Instance

namespace OpcodeConformance

open Wasm

structure Environment where
  address : Address
  caller : Address
  callData : Bytes
  header : BlockHeader
  history : Option ChainHistory
  deriving DecidableEq, Repr

/-- The host's side of a running contract: its environment and the effects that it has raised. The
queue is closed once nobody would apply them. -/
structure HostState where
  environment : Environment
  raised : List Effect
  isOpen : Bool
  deriving DecidableEq, Repr

namespace Interface

abbrev View := HostView HostState

def memoryWith (v : View) (start len : Nat) : Except String Memory :=
  match v.memory with
  | none => .error "module does not export memory"
  | some m =>
    if start + len ≤ m.size then .ok m
    else .error (s!"{Decimal.ofNat len} bytes at {Decimal.ofNat start} exceed memory size " ++
      Decimal.ofNat m.size)

def write (v : View) (start : Nat) (bs : Bytes) : Except String View := do
  let m ← memoryWith v start bs.length
  return { v with memory := some (m.overlay start bs) }

def read (v : View) (start len : Nat) : Except String Bytes := do
  let m ← memoryWith v start len
  return m.slice start len

def raiseEffect (v : View) (e : Effect) : Except String View :=
  if v.host.isOpen then .ok { v with host := { v.host with raised := v.host.raised ++ [e] } }
  else .error s!"effect queue closed: {e.text}"

def useGas (v : View) (amount : Int64) : Except String View :=
  if amount < 0 then .error s!"useGas called with negative amount {Decimal.ofInt amount.toInt}"
  else raiseEffect v (.useGas amount.toUInt64)

/-- Where the call data in a range begins and ends. What is behind the end of the call data does not
count. -/
def callDataBounds (data : Bytes) (start len : Nat) : Nat × Nat :=
  let first := min start data.length
  (first, min (first + len) data.length)

def callDataSlice (data : Bytes) (start len : Nat) : Bytes :=
  let (first, last) := callDataBounds data start len
  (data.drop first).take (last - first) ++ List.replicate (len - (last - first)) 0

/-- Copies call data into the memory. The range is looked at before the bytes are made. -/
def callDataCopy (v : View) (target start len : Nat) : Except String View := do
  let m ← memoryWith v target len
  let bs := callDataSlice v.host.environment.callData start len
  return { v with memory := some (m.overlay target bs) }

def getBlockHash (v : View) (number : UInt64) (target : Nat) : Except String (View × Bool) :=
  match v.host.environment.history with
  | none => .ok (v, false)
  | some h => do return (← write v target (h.blockHash number), true)

def raisePayload (v : View) (effect : Bytes → Effect) (start len : Nat) : Except String View := do
  raiseEffect v (effect (← read v start len))

/-- What a function answers to operands of other types than its own. -/
def refused : Except String (List Value × View) := .error "operands missing"

def noResult (x : Except String View) : Except String (List Value × View) := x.map ([], ·)

/-- A function that writes bytes of the environment at the address it is given. -/
def writer (bytes : Environment → Bytes) : HostFunction HostState where
  type := ⟨[.i32], []⟩
  run
    | [.i32 target], v => noResult (write v target.toNat (bytes v.host.environment))
    | _, _ => refused

def stager (effect : Bytes → Effect) : HostFunction HostState where
  type := ⟨[.i32, .i32], []⟩
  run
    | [.i32 start, .i32 len], v => noResult (raisePayload v effect start.toNat len.toNat)
    | _, _ => refused

def ethereum : List (String × HostFunction HostState) := [
  ("useGas", {
    type := ⟨[.i64], []⟩
    run := fun
      | [.i64 amount], v => noResult (useGas v amount.toInt64)
      | _, _ => refused }),
  ("getAddress", writer fun e => e.address.bytes),
  ("getCaller", writer fun e => e.caller.bytes),
  ("getBlockCoinbase", writer fun e => e.header.coinbase.bytes),
  ("getCallDataSize", {
    type := ⟨[], [.i32]⟩
    run := fun _ v => .ok ([.i32 (UInt32.ofNat v.host.environment.callData.length)], v) }),
  ("callDataCopy", {
    type := ⟨[.i32, .i32, .i32], []⟩
    run := fun
      | [.i32 target, .i32 start, .i32 len], v =>
        noResult (callDataCopy v target.toNat start.toNat len.toNat)
      | _, _ => refused }),
  ("getBlockNumber", {
    type := ⟨[], [.i64]⟩
    run := fun _ v => .ok ([.i64 v.host.environment.header.number], v) }),
  ("getBlockHash", {
    type := ⟨[.i64, .i32], [.i32]⟩
    run := fun
      | [.i64 number, .i32 target], v => do
        let (v, isKnown) ← getBlockHash v number target.toNat
        return ([.i32 (if isKnown then 0 else 1)], v)
      | _, _ => refused }),
  ("return", stager .finish),
  ("revert", stager .revert)]

/-- The functions of the module `debug`. What they show is not part of any result. -/
def debug : List (String × HostFunction HostState) := [
  ("print", { type := ⟨[.i32], []⟩, run := fun _ v => .ok ([], v) }),
  ("printMem", {
    type := ⟨[.i32, .i32], []⟩
    run := fun
      | [.i32 start, .i32 len], v => (read v start.toNat len.toNat).map fun _ => ([], v)
      | _, _ => refused })]

def host : Host HostState := fun module name =>
  if module = "ethereum" then ethereum.lookup name
  else if module = "debug" then debug.lookup name
  else none

end Interface

end OpcodeConformance
