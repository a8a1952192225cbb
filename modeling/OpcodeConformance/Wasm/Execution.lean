import OpcodeConformance.Wasm.Counting
import OpcodeConformance.Wasm.Store

namespace OpcodeConformance.Wasm

variable {η : Type}

/-- How running ends: with what it yields, or with a trap. Changes of the store before a trap
stay. -/
inductive Outcome (η α : Type) where
  | ends (x : α)
  | traps (t : Trap) (store : Store η)

/-- What a function body works on. The uppermost value of the stack comes first. -/
structure Frame (η : Type) where
  store : Store η
  locals : List Value
  stack : List Value

/-- Where code goes on: behind itself, or at a label. -/
inductive Flow where
  | next
  | jump (label : Nat)
  deriving DecidableEq, Repr

abbrev Step (η : Type) := Outcome η (Flow × Frame η)

abbrev Call (η : Type) := Outcome η (List Value × Store η)

namespace Numeric

@[inline] def apply : Numeric → List Value → Except Trap (List Value)
  | .i32Add, .i32 b :: .i32 a :: s => .ok (.i32 (a + b) :: s)
  | .i32Sub, .i32 b :: .i32 a :: s => .ok (.i32 (a - b) :: s)
  | .i32Mul, .i32 b :: .i32 a :: s => .ok (.i32 (a * b) :: s)
  | .i32DivU, .i32 b :: .i32 a :: s =>
    if b = 0 then .error .divideByZero else .ok (.i32 (a / b) :: s)
  | .i32And, .i32 b :: .i32 a :: s => .ok (.i32 (a &&& b) :: s)
  | .i32Or, .i32 b :: .i32 a :: s => .ok (.i32 (a ||| b) :: s)
  | .i32Eq, .i32 b :: .i32 a :: s => .ok (.ofBool (a = b) :: s)
  | .i32GeU, .i32 b :: .i32 a :: s => .ok (.ofBool (b ≤ a) :: s)
  | .i32Eqz, .i32 a :: s => .ok (.ofBool (a = 0) :: s)
  | .i64Add, .i64 b :: .i64 a :: s => .ok (.i64 (a + b) :: s)
  | .i64Mul, .i64 b :: .i64 a :: s => .ok (.i64 (a * b) :: s)
  | .i64Eq, .i64 b :: .i64 a :: s => .ok (.ofBool (a = b) :: s)
  | .i64Ne, .i64 b :: .i64 a :: s => .ok (.ofBool (a ≠ b) :: s)
  | .i64LtU, .i64 b :: .i64 a :: s => .ok (.ofBool (a < b) :: s)
  | .i64ExtendI32U, .i32 a :: s => .ok (.i64 a.toUInt64 :: s)
  | .i64ExtendI32S, .i32 a :: s => .ok (.i64 (UInt64.ofInt a.toInt32.toInt) :: s)
  | _, _ => .error .stuck

end Numeric

namespace Frame

@[inline] def push (v : Value) (f : Frame η) : Step η :=
  .ends (.next, { f with stack := v :: f.stack })

@[inline] def trap (t : Trap) (f : Frame η) : Step η := .traps t f.store

@[inline] def goOn (f : Frame η) (store : Store η) (stack : List Value) : Step η :=
  .ends (.next, { f with store, stack })

end Frame

def pagesOf (m : Memory) : Nat := m.size / pageSize

def Program.grown? (p : Program η) (memory pages more : Nat) : Option Nat :=
  if pages + more ≤ p.pageLimit memory then some (pages + more) else none

@[inline] def step (p : Program η) (call : Nat → List Value → Store η → Call η) (o : Op)
    (f : Frame η) : Step η :=
  match o, f.stack with
  | .unreachable, _ => f.trap .unreachable
  | .drop, _ :: stack => f.goOn f.store stack
  | .const v, _ => f.push v
  | .localGet i, _ =>
    match f.locals[i]? with
    | some v => f.push v
    | none => f.trap .stuck
  | .localSet i, v :: stack => .ends (.next, { f with locals := f.locals.set i v, stack })
  | .globalGet i, _ =>
    match f.store.globals[i]? with
    | some v => f.push v
    | none => f.trap .stuck
  | .globalSet i, v :: stack =>
    f.goOn { f.store with globals := f.store.globals.set i v } stack
  | .call i, stack =>
    match p.functionType? i with
    | none => f.trap .stuck
    | some type =>
      let arity := type.params.length
      match call i (stack.take arity).reverse f.store with
      | .ends (results, store) => f.goOn store (results.reverse ++ stack.drop arity)
      | .traps t store => .traps t store
  | .branch l, _ => .ends (.jump l, f)
  | .branchIf l, .i32 c :: stack =>
    .ends (if c = 0 then .next else .jump l, { f with stack })
  | .numeric n, stack =>
    match n.apply stack with
    | .ok stack => f.goOn f.store stack
    | .error t => f.trap t
  | .load a place, .i32 i :: stack =>
    match f.store.load? a place.memory (i.toNat + place.offset) with
    | some v => f.goOn f.store (v :: stack)
    | none => f.trap .outOfBounds
  | .store a place, v :: .i32 i :: stack =>
    match Store.storedBytes? a v with
    | none => f.trap .stuck
    | some bs =>
      match f.store.write? place.memory (i.toNat + place.offset) bs with
      | some store => f.goOn store stack
      | none => f.trap .outOfBounds
  | .memorySize m, _ =>
    match f.store.memories[m]? with
    | some memory => f.push (.i32 (UInt32.ofNat (pagesOf memory)))
    | none => f.trap .stuck
  | .memoryGrow m, .i32 more :: stack =>
    match f.store.memories[m]? with
    | some memory =>
      match p.grown? m (pagesOf memory) more.toNat with
      | some pages =>
        f.goOn (f.store.withMemory m (memory.resize (pages * pageSize)))
          (.i32 (UInt32.ofNat (pagesOf memory)) :: stack)
      | none => f.goOn f.store (.i32 (-1) :: stack)
    | none => f.trap .stuck
  | _, _ => f.trap .stuck

/-- The end of a block that leaves `count` values on the stack around it. -/
@[inline] def leave (count : Nat) (outer : List Value) : Flow × Frame η → Flow × Frame η
  | (.jump (l + 1), f) => (.jump l, f)
  | (_, f) => (.next, { f with stack := f.stack.take count ++ outer })

@[inline] def Outcome.goOn (o : Step η) (next : Frame η → Step η) : Step η :=
  match o with
  | .ends (.next, f) => next f
  | o => o

@[inline] def Outcome.leave (o : Step η) (count : Nat) (outer : List Value) : Step η :=
  match o with
  | .ends x => .ends (Wasm.leave count outer x)
  | o => o

/-- Runs the body of a loop that takes `count` values until it does not jump to its beginning. -/
def iterate (count : Nat) (body : Frame η → Step η) : Nat → Frame η → Step η
  | 0, f => f.trap .exhausted
  | n + 1, f =>
    match body { f with stack := f.stack.take count } with
    | .ends (.jump 0, g) => iterate count body n g
    | o => o

/-- The frame after those rounds of a loop that need not be run because the loop only counts. -/
def skip (count : Nat) (body : Code) (f : Frame η) : Frame η :=
  if count = 0 then { f with locals := (Counting.ahead body f.locals).2 } else f

/-- How many times the body of a loop can run. No program within reach meets this bound. -/
def greatestIterations : Nat := Nat.pow 2 62

/-- How many bytes of the machine's stack calls can take together: half a mebibyte, less a part for
what the host has put there. -/
def stackSize : Nat := 523264

/-- How deeply calls can be nested at most, because each takes at least two words of the stack. -/
def greatestDepth : Nat := 32768

def run (p : Program η) (call : Nat → List Value → Store η → Call η) : Code → Frame η → Step η
  | .done, f => .ends (.next, f)
  | .op o next, f => (step p call o f).goOn (run p call next)
  | .block t body next, f =>
    let count := t.params.length
    ((run p call body { f with stack := f.stack.take count }).leave t.results.length
      (f.stack.drop count)).goOn (run p call next)
  | .loop t body next, f =>
    let count := t.params.length
    ((iterate count (run p call body) greatestIterations (skip count body f)).leave
      t.results.length (f.stack.drop count)).goOn (run p call next)
  | .choice t yes no next, f =>
    match f.stack with
    | .i32 c :: stack =>
      let count := t.params.length
      let f := { f with stack := stack.take count }
      ((if c = 0 then run p call no f else run p call yes f).leave t.results.length
        (stack.drop count)).goOn (run p call next)
    | _ => f.trap .stuck

def Function.call (p : Program η) (call : Nat → List Value → Store η → Call η) (f : Function)
    (args : List Value) (s : Store η) : Call η :=
  match run p call f.body ⟨s, args ++ f.locals.map Value.zero, []⟩ with
  | .ends (_, g) => .ends ((g.stack.take f.type.results.length).reverse, g.store)
  | .traps t s => .traps t s

def callsPerStack : Nat := 512

/-- Computes a value, and begins a new stack for it where the depth asks for one. Calls can so be
nested as deeply as there is memory. -/
def onStack {α : Type} (depth : Nat) (f : Unit → α) : α :=
  if depth % callsPerStack = 0 then (Task.spawn f).get else f ()

theorem onStack_eq {α : Type} (depth : Nat) (f : Unit → α) : onStack depth f = f () := by
  unfold onStack
  split <;> rfl

namespace Program

def callHost (p : Program η) (h : HostFunction η) (view : HostView η) (args : List Value)
    (s : Store η) : Call η :=
  match h.run args view with
  | .ok (results, v) => .ends (results, p.update s v)
  | .error reason => .traps (.host reason) s

def stackUse (p : Program η) (i : Nat) : Nat := p.stackUses.getD i 0

/-- Runs the function with a number, from inside the module, while `room` bytes of the stack are
left. -/
def callWithin (p : Program η) : Nat → Nat → Nat → List Value → Store η → Call η
  | 0, _, _, _, s => .traps .exhausted s
  | depth + 1, room, i, args, s =>
    match p.imports[i]? with
    | some h => p.callHost h (p.view s) args s
    | none =>
      let i := i - p.imports.length
      match p.module.functions[i]? with
      | some f =>
        if room < p.stackUse i then .traps .exhausted s
        else onStack depth fun _ => f.call p (callWithin p depth (room - p.stackUse i)) args s
      | none => .traps .stuck s

def call (p : Program η) (i : Nat) (args : List Value) (s : Store η) : Call η :=
  p.callWithin greatestDepth stackSize i args s

/-- Runs the function with a number, from outside the module. A function of the host then sees no
memory, because no module calls it. -/
def enter (p : Program η) (i : Nat) (args : List Value) (s : Store η) : Call η :=
  match p.imports[i]? with
  | some h => p.callHost h ⟨none, s.host⟩ args s
  | none => p.call i args s

end Program

end OpcodeConformance.Wasm
