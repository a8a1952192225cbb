import OpcodeConformance.Wasm.Module

namespace OpcodeConformance.Wasm

def Numeric.type : Numeric → FunctionType
  | .i32Add | .i32Sub | .i32Mul | .i32DivU | .i32And | .i32Or | .i32Eq | .i32GeU =>
    ⟨[.i32, .i32], [.i32]⟩
  | .i32Eqz => ⟨[.i32], [.i32]⟩
  | .i64Add | .i64Mul => ⟨[.i64, .i64], [.i64]⟩
  | .i64Eq | .i64Ne | .i64LtU => ⟨[.i64, .i64], [.i32]⟩
  | .i64ExtendI32U | .i64ExtendI32S => ⟨[.i32], [.i64]⟩

/-- How many parameters and how many results a function or block can have. -/
def greatestArity : Nat := 1000

def FunctionType.isValid (t : FunctionType) : Bool :=
  t.params.length ≤ greatestArity && t.results.length ≤ greatestArity

namespace Typing

structure Context where
  functions : List FunctionType
  globals : List GlobalType
  memories : Nat
  locals : List ValueType

/-- Whether an access can take place there: the offset is in reach of addresses, and no more is
promised than that the place is a multiple of the width. -/
def Context.allows (c : Context) (a : Access) (place : Location) : Bool :=
  place.memory < c.memories && place.offset < UInt32.size && place.alignment ≤ a.width

/-- The types on the stack, the uppermost first. Where the code cannot be reached, further types
below them may be assumed. -/
structure Operands where
  types : List ValueType
  reachable : Bool
  deriving DecidableEq, Repr

namespace Operands

def start (ts : List ValueType) : Operands := ⟨ts.reverse, true⟩

/-- Behind an instruction that never falls through. -/
def beyond : Operands := ⟨[], false⟩

def push (ts : List ValueType) (s : Operands) : Operands :=
  { s with types := ts.reverse ++ s.types }

def popEach : List ValueType → Operands → Option Operands
  | [], s => some s
  | t :: ts, s =>
    match s.types with
    | u :: us => if t = u then popEach ts { s with types := us } else none
    | [] => if s.reachable then none else popEach ts s

def pop (ts : List ValueType) (s : Operands) : Option Operands := popEach ts.reverse s

def popAny (s : Operands) : Option Operands :=
  match s.types with
  | _ :: us => some { s with types := us }
  | [] => if s.reachable then none else some s

def isExactly (ts : List ValueType) (s : Operands) : Bool :=
  match s.pop ts with
  | some s => s.types.isEmpty
  | none => false

end Operands

/-- The types after an instruction. `labels` are the types that a branch to each label takes. -/
def step (c : Context) (labels : List (List ValueType)) (o : Op) (s : Operands) : Option Operands :=
  match o with
  | .unreachable => some .beyond
  | .drop => s.popAny
  | .const v => some (s.push [v.type])
  | .localGet i => do return s.push [← c.locals[i]?]
  | .localSet i => do s.pop [← c.locals[i]?]
  | .globalGet i => do return s.push [(← c.globals[i]?).value]
  | .globalSet i => do
    let g ← c.globals[i]?
    if g.isMutable then s.pop [g.value] else none
  | .call f => do
    let t ← c.functions[f]?
    return (← s.pop t.params).push t.results
  | .branch l => do
    let _ ← s.pop (← labels[l]?)
    return .beyond
  | .branchIf l => do
    let ts ← labels[l]?
    return (← (← s.pop [.i32]).pop ts).push ts
  | .numeric n => do return (← s.pop n.type.params).push n.type.results
  | .load a place =>
    if c.allows a place then do return (← s.pop [.i32]).push [a.type] else none
  | .store a place => if c.allows a place then s.pop [.i32, a.type] else none
  | .memorySize m => if m < c.memories then some (s.push [.i32]) else none
  | .memoryGrow m => if m < c.memories then do return (← s.pop [.i32]).push [.i32] else none
  | .unpaired => none

/-- The types after a sequence of instructions. A branch to a block leads behind it and takes its
results, a branch to a loop leads to its beginning and takes its parameters. -/
def check (c : Context) (labels : List (List ValueType)) : Code → Operands → Option Operands
  | .done, s => some s
  | .op o next, s => do check c labels next (← step c labels o s)
  | .block t body next, s => do
    let s ← s.pop t.params
    let inner ← check c (t.results :: labels) body (.start t.params)
    if t.isValid && inner.isExactly t.results then check c labels next (s.push t.results)
    else none
  | .loop t body next, s => do
    let s ← s.pop t.params
    let inner ← check c (t.params :: labels) body (.start t.params)
    if t.isValid && inner.isExactly t.results then check c labels next (s.push t.results)
    else none
  | .choice t yes no next, s => do
    let s ← (← s.pop [.i32]).pop t.params
    let y ← check c (t.results :: labels) yes (.start t.params)
    let n ← check c (t.results :: labels) no (.start t.params)
    if t.isValid && y.isExactly t.results && n.isExactly t.results then
      check c labels next (s.push t.results)
    else none

end Typing

namespace Module

def greatestLocals : Nat := 50000

def greatestMemories : Nat := 100

def longestName : Nat := 100000

def isTyped (m : Module) (f : Function) : Bool :=
  let locals := f.type.params ++ f.locals
  let c : Typing.Context := ⟨m.functionTypes, m.globalTypes, m.memoryLimits.length, locals⟩
  match Typing.check c [f.type.results] f.body (.start []) with
  | some s => locals.length ≤ greatestLocals && s.isExactly f.type.results
  | none => false

/-- Whether code is one constant of a type, or the value of an imported global that cannot
change. -/
def isConstant (m : Module) (t : ValueType) : Code → Bool
  | .op (.const v) .done => v.type = t
  | .op (.globalGet i) .done => m.importedGlobals[i]? = some ⟨t, false⟩
  | _ => false

def hasTarget (m : Module) : Target → Bool
  | .function i => i < m.functionTypes.length
  | .memory i => i < m.memoryLimits.length
  | .global i => i < m.globalTypes.length

/-- Whether a memory can have these limits. Its addresses must be numbers of 32 bits, and a shared
memory cannot grow without a limit. -/
def Limits.isValid (l : Limits) : Bool :=
  !l.isWide && (!l.isShared || l.greatest.isSome) && l.least ≤ greatestPages
    && l.greatest.all fun n => l.least ≤ n && n ≤ greatestPages

def outerNames (m : Module) : List String :=
  m.imports.flatMap (fun i => [i.module, i.name]) ++ m.exports.map (·.name)

/-- Whether the module can be instantiated at all: it is not too large, everything it names exists
and has the right type, no two exports have one name, and at most one function is started. -/
def isValid (m : Module) : Bool :=
  m.functionTypes.all FunctionType.isValid
    && m.outerNames.all (fun n => n.utf8ByteSize ≤ longestName)
    && m.functions.all m.isTyped
    && m.memoryLimits.length ≤ greatestMemories
    && m.memoryLimits.all Limits.isValid
    && m.globals.all (fun g => m.isConstant g.type.value g.initial)
    && m.exports.all (fun e => m.hasTarget e.target)
    && decide (m.exports.map (·.name)).Nodup
    && m.starts.length ≤ 1
    && m.starts.all (fun i => m.functionTypes[i]? = some ⟨[], []⟩)
    && m.segments.all (fun d => d.memory < m.memoryLimits.length && m.isConstant .i32 d.offset)

end Module

end OpcodeConformance.Wasm
