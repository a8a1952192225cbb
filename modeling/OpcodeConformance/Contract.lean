import OpcodeConformance.Contract.Binary
import OpcodeConformance.Contract.Call
import OpcodeConformance.Contract.Interface

namespace OpcodeConformance

open Wasm

structure Response where
  payload : Option Bytes
  isReverted : Bool
  deriving DecidableEq, Repr

def Response.none : Response := ⟨.none, false⟩

structure Contract where
  code : Binary
  state : StateTree
  account : Address
  /-- The instance that the last accepted message has made. -/
  live : Option (Instance HostState)
  /-- The effects that wait; none before any message has got as far as an instance. -/
  queue : Option (List Effect)
  gasLeft : UInt64
  response : Response

namespace Contract

def new (code : Binary) (state : StateTree) (account : Address) : Contract :=
  ⟨code, state, account, none, none, 0, .none⟩

def block (t : StateTree) : Except StateError Block :=
  match t.get [blockPath] with
  | .ok node => return (← node.decodeValue Block.record.decoder).getD .initial
  | .error _ => return .initial

def history (t : StateTree) : Except StateError (Option ChainHistory) :=
  match t.get [historyPath] with
  | .ok node => node.decodeValue ChainHistory.record.decoder
  | .error _ => return none

def environment (t : StateTree) (account : Address) (m : Message) :
    Except StateError Environment := do
  let _ ← t.get (accountPath account)
  let b ← block t
  return ⟨account, m.caller, m.data, b.header, ← history t⟩

/-- The instance for a message, before any of its functions is called. It must show a memory. -/
def instantiate (c : Contract) (m : Message) : Except Fault (Instance HostState) := do
  let e ← (environment c.state c.account m).mapError Fault.state
  let module ← c.code.load
  let i ← (Instance.start Interface.host module ⟨e, [], true⟩).mapError
    fun e => Fault.instantiation e.message
  if i.program.shown?.isSome then return i
  else throw (.missingExport Program.memoryName)

def drain (i : Instance HostState) : List Effect × Instance HostState :=
  (i.store.host.raised,
    { i with store := { i.store with host := { i.store.host with raised := [] } } })

def close (i : Instance HostState) : Instance HostState :=
  { i with store := { i.store with host := { i.store.host with isOpen := false } } }

def entryName : String := "main"

/-- Makes an instance for a message and runs its entry function. If that fails, an earlier instance
stays, but its effects are no longer applied. -/
def receive (m : Message) (c : Contract) : Except Fault Unit × Contract :=
  match c.instantiate m with
  | .error f => (.error f, c)
  | .ok i =>
    let (result, i) :=
      if i.hasFunction entryName then Call.run entryName [] i else (.ok none, i)
    let (raised, i) := drain i
    let c := { c with queue := some raised, gasLeft := m.gas, response := .none }
    match result with
    | .ok _ => (.ok (), { c with live := some i })
    | .error f => (.error f, { c with live := c.live.map close })

def call (name : String) (params : List Int64) (c : Contract) :
    Except Fault (Option Int64) × Contract :=
  match c.live with
  | none => (.error .notInstantiated, c)
  | some i =>
    let (result, i) := Call.run name params i
    let (raised, i) := drain i
    (result, { c with live := some i, queue := c.queue.map (· ++ raised) })

def write (offset : Nat) (bs : Bytes) (c : Contract) : Except Fault Unit × Contract :=
  match c.live with
  | none => (.error .notInstantiated, c)
  | some i =>
    let (result, i) := Call.write offset bs i
    (result, { c with live := some i })

def read (offset len : Nat) (c : Contract) : Except Fault Bytes :=
  match c.live with
  | none => .error .notInstantiated
  | some i => Call.read offset len i

def hasFunction (name : String) (c : Contract) : Except Fault Bool :=
  match c.live with
  | none => .error .notInstantiated
  | some i => .ok (i.hasFunction name)

def apply (e : Effect) (c : Contract) : Except Fault Unit × Contract :=
  match e with
  | .useGas amount =>
    if c.gasLeft < amount then (.error (.outOfGas amount c.gasLeft), { c with gasLeft := 0 })
    else (.ok (), { c with gasLeft := c.gasLeft - amount })
  | .finish payload => (.ok (), { c with response := ⟨some payload, false⟩ })
  | .revert payload => (.ok (), { c with response := ⟨some payload, true⟩ })

def applyAll : List Effect → Contract → Except Fault Unit × Contract
  | [], c => (.ok (), c)
  | e :: es, c =>
    match c.apply e with
    | (.ok _, c) => applyAll es c
    | (.error f, c) => (.error f, c)

/-- Applies all waiting effects. Those behind one that fails are lost. -/
def settle (c : Contract) : Except Fault Unit × Contract :=
  match c.queue with
  | none => (.error .notInstantiated, c)
  | some effects => applyAll effects { c with queue := some [] }

end Contract

end OpcodeConformance
