import OpcodeConformance.Machine

namespace OpcodeConformance

/-- What a scripted machine does. -/
structure Script where
  memorySize : Nat
  result : Option Int64
  /-- What a call writes into the memory, in this order. It fails at the first that does not fit. -/
  writes : List (Nat × Bytes)
  /-- The gas that is left when the effects are applied, if it changes. -/
  gasLeft : Option UInt64
  payload : Option Bytes
  missing : List String
  /-- How many times the instance is given away, if there is a limit. -/
  attachments : Option Nat
  createFault : Option Fault
  receiveFault : Option Fault
  callFault : Option Fault
  settleFault : Option Fault

def Script.plain : Script :=
  ⟨65536, none, [], none, none, [], none, none, none, none, none⟩

/-- The state of a scripted machine. Only the log outlives the making of a new contract. -/
structure ScriptedState where
  log : List String
  memory : Option Memory
  gasLeft : UInt64
  payload : Option Bytes
  attached : Nat

namespace ScriptedState

def initial : ScriptedState := ⟨[], none, 0, none, 0⟩

def record (line : String) (s : ScriptedState) : ScriptedState := { s with log := s.log ++ [line] }

end ScriptedState

namespace Script

variable {α : Type}

def unlessFault (f : Option Fault) : Action Fault ScriptedState Unit := fun s =>
  match f with
  | some f => (.error f, s)
  | none => (.ok (), s)

def log (line : String) : Action Fault ScriptedState Unit := fun s => (.ok (), s.record line)

def create (script : Script) (code : Bytes) (state : StateTree) (account : Address) :
    Action Fault ScriptedState Unit := do
  log ("create account=" ++ account.toHex ++ " code=" ++ Decimal.ofNat code.length ++ ":" ++
    Hex.encode (keccak256 code) ++ " state=" ++ Hex.encode state.hash)
  unlessFault script.createFault
  modify fun s => { ScriptedState.initial with log := s.log }

def receive (script : Script) (m : Message) : Action Fault ScriptedState Unit := do
  log ("receive caller=" ++ m.caller.toHex ++ " data=" ++ Hex.encode m.data ++ " gas=" ++
    Decimal.ofNat m.gas.toNat)
  unlessFault script.receiveFault
  modify fun s => { s with gasLeft := m.gas, memory := some (.zeros script.memorySize) }

def attach (script : Script) : Action Fault ScriptedState Unit := fun s =>
  let isWithin := match script.attachments with
    | some limit => s.attached < limit
    | none => true
  let s := { s with attached := s.attached + 1 }
  (if isWithin && s.memory.isSome then .ok () else .error .notInstantiated, s)

def setterName : String := "setSP"

def paramsText (params : List Int64) : String :=
  "[" ++ ", ".intercalate (params.map fun x => Decimal.ofInt x.toInt) ++ "]"

def store (offset : Nat) (bs : Bytes) : Action Fault ScriptedState Unit := do
  let some m := (← get).memory | throw .notInstantiated
  match m.write? offset bs with
  | some m => modify fun s => { s with memory := some m }
  | none => throw (.memoryOutOfBounds offset bs.length m.size)

def call (script : Script) (name : String) (params : List Int64) :
    Action Fault ScriptedState (Option Int64) := do
  log ("call " ++ name ++ " " ++ paramsText params)
  if script.missing.contains name then throw (.missingExport name)
  if name = setterName then return none
  unlessFault script.callFault
  script.writes.forM fun w => store w.1 w.2
  return script.result

def write (offset : Nat) (bs : Bytes) : Action Fault ScriptedState Unit := do
  log ("write " ++ Decimal.ofNat offset ++ " " ++ Hex.encode bs)
  store offset bs

def read (offset len : Nat) : Action Fault ScriptedState Bytes := do
  log ("read " ++ Decimal.ofNat offset ++ "+" ++ Decimal.ofNat len)
  let some m := (← get).memory | throw .notInstantiated
  match m.read? offset len with
  | some bs => return bs
  | none => throw (.memoryOutOfBounds offset len m.size)

def settle (script : Script) : Action Fault ScriptedState Unit := do
  log "done"
  unlessFault script.settleFault
  modify fun s => { s with
    gasLeft := script.gasLeft.getD s.gasLeft
    payload := script.payload }

def machine (script : Script) : Machine Bytes ScriptedState where
  create := script.create
  receive := script.receive
  attach := script.attach
  call := script.call
  write := write
  read := read
  settle := script.settle
  gasLeft := (·.gasLeft)
  returnValue := (·.payload)

def refused : String := "BROKEN"

def toolchain : Toolchain Bytes := fun text =>
  if text.contains refused then .error ⟨"unexpected token"⟩
  else .ok (Binary.mark ++ Bytes.ofString text)

end Script

end OpcodeConformance
