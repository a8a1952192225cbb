import OpcodeConformance.Wasm.Module

namespace OpcodeConformance.Wasm

def Code.assigned : Code → List Nat
  | .done => []
  | .op (.localSet i) next => i :: next.assigned
  | .op _ next => next.assigned
  | .block _ body next | .loop _ body next => body.assigned ++ next.assigned
  | .choice _ yes no next => yes.assigned ++ (no.assigned ++ next.assigned)

/-- Whether code leaves what registers hold to other code: to functions or to the host. -/
def Code.hasCalls : Code → Bool
  | .done => false
  | .op (.call _) _ | .op (.memoryGrow _) _ => true
  | .op _ next => next.hasCalls
  | .block _ body next | .loop _ body next => body.hasCalls || next.hasCalls
  | .choice _ yes no next => yes.hasCalls || no.hasCalls || next.hasCalls

namespace Usage

/-- A set of sources, which are the bits of a number. -/
abbrev Sources := Nat

/-- The source by which memories, globals and functions are reached. -/
def instanceSource : Nat := 0

/-- Where a value comes from. Sources are the parameters, the results of calls, what is read from
memories and globals, and what is brought to a place where ways through the code meet, numbered in
the order in which they are made. All other values are computed from them. -/
inductive Origin where
  | constant (v : Value)
  | source (n : Nat)
  | computed (ns : Sources)
  deriving DecidableEq, Repr

def Origin.sources : Origin → Sources
  | constant _ => 0
  | source n => 1 <<< n
  | computed ns => ns

def sourcesOf (vs : List Origin) : Sources := vs.foldl (fun ns v => ns ||| v.sources) 0

/-- A place whose content can be known: what tells where a memory begins, what has been read or
written at an address, and globals. -/
inductive Cell where
  | base (memory : Nat)
  | word (a : Access) (memory offset : Nat) (address : Origin)
  | global (i : Nat)
  deriving DecidableEq, Repr

namespace Cell

def isBase : Cell → Bool
  | base _ => true
  | _ => false

def isWord : Cell → Bool
  | word .. => true
  | _ => false

def isGlobal : Cell → Bool
  | global _ => true
  | _ => false

end Cell

structure Held where
  locals : List Origin
  operands : List Origin
  deriving DecidableEq, Repr

/-- A place where ways through the code meet. What they bring in some locals and uppermost on the
stack are new sources from there on, numbered from `first`. -/
structure Meeting where
  first : Nat
  locals : List Nat
  operands : Nat
  deriving DecidableEq, Repr

namespace Meeting

def size (m : Meeting) : Nat := m.locals.length + m.operands

def brought (m : Meeting) (h : Held) : List Origin :=
  m.locals.map (fun i => h.locals.getD i (.computed 0)) ++ h.operands.take m.operands

def held (m : Meeting) (locals outer : List Origin) : Held where
  locals := (m.locals.zipIdx m.first).foldl (fun vs x => vs.set x.1 (.source x.2)) locals
  operands := (List.range' (m.first + m.locals.length) m.operands).map .source ++ outer

def before (m : Meeting) (needed : Sources) (h : Held) : Sources :=
  ((m.brought h).zipIdx m.first).foldl
    (fun ns x => if needed.testBit x.2 then ns ||| x.1.sources else ns)
    (needed % (1 <<< m.first))

end Meeting

inductive Event where
  | made (n : Nat)
  | used (ns : Sources)
  | called (type : FunctionType)
  | stopped
  | jumped (label : Nat) (h : Held)
  | mayJump (label : Nat) (h : Held)
  | blockBegins
  | turned
  | blockEnds (m : Meeting)
  | loopBegins (h : Held)
  /-- A loop ends. Its rounds meet at its beginning, hold some values there and use some sources. -/
  | loopEnds (m : Meeting) (h : Held) (ns : Sources)
  deriving DecidableEq, Repr

structure Trace where
  held : Held
  known : List (Cell × Origin)
  count : Nat
  /-- What has been used since the beginning of the innermost loop. -/
  used : Sources
  isLive : Bool
  /-- What has happened, the latest first. -/
  events : List Event
  deriving DecidableEq, Repr

namespace Trace

def record (e : Event) (t : Trace) : Trace := { t with events := e :: t.events }

def stop (e : Event) (t : Trace) : Trace := { t.record e with isLive := false }

def use (ns : Sources) (t : Trace) : Trace := { t.record (.used ns) with used := t.used ||| ns }

def useInstance (t : Trace) : Trace := t.use (1 <<< instanceSource)

def make (t : Trace) : Trace := { t.record (.made t.count) with count := t.count + 1 }

def withOperands (vs : List Origin) (t : Trace) : Trace :=
  { t with held := { t.held with operands := vs } }

def push (v : Origin) (t : Trace) : Trace := t.withOperands (v :: t.held.operands)

def pushNew (t : Trace) : Trace := t.make.push (.source t.count)

def learn (c : Cell) (v : Origin) (t : Trace) : Trace := { t with known := (c, v) :: t.known }

def keepKnown (p : Cell → Bool) (t : Trace) : Trace :=
  { t with known := t.known.filter fun k => p k.1 }

/-- Uses what tells where a memory begins. It is read only once. -/
def useBase (memory : Nat) (t : Trace) : Trace :=
  match t.known.lookup (.base memory) with
  | some v => t.use v.sources
  | none => (t.useInstance.make.learn (.base memory) (.source t.count)).use (1 <<< t.count)

def pushContent (c : Cell) (read : Trace → Trace) (t : Trace) : Trace :=
  match t.known.lookup c with
  | some v => t.push v
  | none =>
    let t := read t
    t.pushNew.learn c (.source t.count)

/-- A call with operands that have been taken from the stack. Only where memories begin stays
known. -/
def call (type : FunctionType) (args : Sources) (t : Trace) : Trace :=
  let t := ((t.use (args ||| 1 <<< instanceSource)).record (.called type)).keepKnown Cell.isBase
  type.results.foldl (fun t _ => t.pushNew) t

/-- A value of an address that cannot be compared is not the content of any cell. -/
def load (a : Access) (place : Location) (address : Origin) (t : Trace) : Trace :=
  let read (t : Trace) : Trace := (t.useBase place.memory).use address.sources
  match address with
  | .computed _ => (read t).pushNew
  | _ => t.pushContent (.word a place.memory place.offset address) read

def store (a : Access) (place : Location) (address v : Origin) (t : Trace) : Trace :=
  let t := (t.useBase place.memory).use (address.sources ||| v.sources)
  let t := t.keepKnown fun c => !c.isWord
  match a, address with
  | .byte, _ | _, .computed _ => t
  | _, _ => t.learn (.word a place.memory place.offset address) v

def step (functions : List FunctionType) (o : Op) (t : Trace) : Trace :=
  match o, t.held.operands with
  | .drop, _ :: vs => t.withOperands vs
  | .const v, _ => t.push (.constant v)
  | .localGet i, _ => t.push (t.held.locals.getD i (.computed 0))
  | .localSet i, v :: vs => { t with held := ⟨t.held.locals.set i v, vs⟩ }
  | .globalGet i, _ => t.pushContent (.global i) useInstance
  | .globalSet i, v :: vs =>
    let t := (t.withOperands vs).use (v.sources ||| 1 <<< instanceSource)
    (t.keepKnown fun c => !c.isGlobal).learn (.global i) v
  | .call f, vs =>
    let type := functions.getD f ⟨[], []⟩
    let count := type.params.length
    (t.withOperands (vs.drop count)).call type (sourcesOf (vs.take count))
  | .branch l, _ => t.stop (.jumped l t.held)
  | .branchIf l, v :: vs =>
    let t := (t.withOperands vs).use v.sources
    t.record (.mayJump l t.held)
  | .numeric .i32DivU, w :: v :: vs => ((t.withOperands vs).use (v.sources ||| w.sources)).pushNew
  | .numeric .i32Eqz, v :: vs | .numeric .i64ExtendI32U, v :: vs
  | .numeric .i64ExtendI32S, v :: vs => (t.withOperands vs).push (.computed v.sources)
  | .numeric _, w :: v :: vs => (t.withOperands vs).push (.computed (v.sources ||| w.sources))
  | .load a place, v :: vs => (t.withOperands vs).load a place v
  | .store a place, w :: v :: vs => (t.withOperands vs).store a place v w
  | .memorySize _, _ => t.useInstance.pushNew
  | .memoryGrow _, v :: vs => (t.withOperands vs).call ⟨[.i32], [.i32]⟩ v.sources
  | _, _ => t.stop .stopped

def fall (t : Trace) : Trace := if t.isLive then t.stop (.jumped 0 t.held) else t

/-- The trace behind the end of a block. `outer` is the trace in front of it, and the operands are
those below the block. -/
def meet (t : Trace) (m : Meeting) (outer : Trace) (operands : List Origin) : Trace :=
  { t.record (.blockEnds m) with
    held := m.held outer.held.locals operands
    known := outer.known.filter fun k => k.1.isBase
    count := t.count + m.size
    isLive := true }

end Trace

def trace (functions : List FunctionType) : Code → Trace → Trace
  | .done, t => t
  | .op o next, t =>
    let t := t.step functions o
    if t.isLive then trace functions next t else t
  | .block type body next, t =>
    let count := type.params.length
    let inner := trace functions body
      ((t.withOperands (t.held.operands.take count)).record .blockBegins)
    let m : Meeting := ⟨inner.count, body.assigned.eraseDups, type.results.length⟩
    trace functions next (inner.fall.meet m t (t.held.operands.drop count))
  | .loop type body next, t =>
    let count := type.params.length
    let m : Meeting := ⟨t.count, body.assigned.eraseDups, count⟩
    let start := { (t.record (.loopBegins t.held)).keepKnown Cell.isBase with
      held := m.held t.held.locals []
      count := t.count + m.size
      used := 0 }
    let inner := trace functions body start
    let t' := { inner.record (.loopEnds m start.held inner.used) with
      held := ⟨inner.held.locals,
        inner.held.operands.take type.results.length ++ t.held.operands.drop count⟩
      used := t.used ||| inner.used }
    if t'.isLive then trace functions next t' else t'
  | .choice type yes no next, t =>
    let count := type.params.length
    let condition := t.held.operands.head?.elim 0 Origin.sources
    let operands := t.held.operands.drop 1
    let t := (t.withOperands (operands.take count)).use condition |>.record .blockBegins
    let first := (trace functions yes t).fall
    let second := trace functions no
      { first.record .turned with held := t.held, known := t.known, isLive := true }
    let m : Meeting :=
      ⟨second.count, (yes.assigned ++ no.assigned).eraseDups, type.results.length⟩
    trace functions next (second.fall.meet m t (operands.drop count))

end Usage

end OpcodeConformance.Wasm
