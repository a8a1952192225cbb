import OpcodeConformance.Wasm.Code

namespace OpcodeConformance.Wasm.Counting

/-- A number inside a body: a constant, or what a local was before the body plus a constant. -/
structure Shifted where
  base : Option Nat
  shift : UInt32
  deriving DecidableEq, Repr

inductive Operand where
  | number (x : Shifted)
  | isZero (x : Shifted)
  deriving DecidableEq, Repr

namespace Shifted

def add? : Shifted → Shifted → Option Shifted
  | ⟨b, x⟩, ⟨none, y⟩ => some ⟨b, x + y⟩
  | ⟨none, x⟩, ⟨some b, y⟩ => some ⟨some b, x + y⟩
  | _, _ => none

def sub? : Shifted → Shifted → Option Shifted
  | ⟨b, x⟩, ⟨none, y⟩ => some ⟨b, x - y⟩
  | _, _ => none

end Shifted

structure Progress where
  shifts : List UInt32
  operands : List Operand
  used : List Nat
  /-- The numbers of which none must be zero for the body to go on. -/
  guards : List Shifted
  deriving DecidableEq, Repr

namespace Progress

def start (locals : Nat) : Progress := ⟨List.replicate locals 0, [], [], []⟩

def binary? (p : Progress) (f : Shifted → Shifted → Option Operand) : Option Progress :=
  match p.operands with
  | .number y :: .number x :: os => (f x y).map fun z => { p with operands := z :: os }
  | _ => none

/-- The progress after a local is set. It must be set to a sum with itself. -/
def set? (p : Progress) (i : Nat) : Option Progress :=
  match p.operands with
  | .number ⟨some j, s⟩ :: os =>
    if i = j then
      some { p with shifts := p.shifts.set i s, operands := os, used := i :: p.used }
    else none
  | _ => none

def compare? (p : Progress) : Option Progress :=
  match p.operands with
  | .number x :: os => some { p with operands := .isZero x :: os }
  | _ => none

/-- The progress behind a place where the body is left if a number is zero. -/
def pass? (p : Progress) : Option Progress :=
  match p.operands with
  | .isZero x :: os => some { p with operands := os, guards := x :: p.guards }
  | _ => none

def step? (p : Progress) : Op → Option Progress
  | .const (.i32 c) => some { p with operands := .number ⟨none, c⟩ :: p.operands }
  | .localGet i =>
    p.shifts[i]?.map fun s =>
      { p with operands := .number ⟨some i, s⟩ :: p.operands, used := i :: p.used }
  | .localSet i => p.set? i
  | .numeric .i32Add => p.binary? fun x y => (x.add? y).map .number
  | .numeric .i32Sub => p.binary? fun x y => (x.sub? y).map .number
  | .numeric .i32Eqz => p.compare?
  | .numeric .i32Eq => p.binary? fun x y => (x.sub? y).map .isZero
  | .branchIf (_ + 1) => p.pass?
  | _ => none

def finish? : Code → Progress → Option Progress
  | .op (.branch 0) _, p => some p
  | .op (.branchIf 0) _, p =>
    match p.operands with
    | .number x :: _ => some { p with guards := x :: p.guards }
    | _ => none
  | .op o next, p =>
    match p.step? o with
    | some p => finish? next p
    | none => none
  | _, _ => none

end Progress

/-- The number whose product with an odd number is one. Each step doubles the bits that are right,
of which there are three at the beginning. -/
def inverse (u : UInt32) : UInt32 :=
  let better (v : UInt32) : UInt32 := v * (2 - u * v)
  better (better (better (better u)))

/-- How often `step` must be added to `x` to make it zero; zero if that never happens. The solutions
of such a congruence are one period apart, so that the one below the period is the least. -/
def rounds (x step : UInt32) : Nat :=
  let g := Nat.gcd UInt32.size step.toNat
  let factor := inverse (UInt32.ofNat (step.toNat / g))
  let count := (UInt32.ofNat ((0 - x).toNat / g) * factor).toNat % (UInt32.size / g)
  if x + UInt32.ofNat count * step = 0 then count else 0

def isNumber (locals : List Value) (i : Nat) : Bool :=
  match locals[i]? with
  | some (.i32 _) => true
  | _ => false

def number (locals : List Value) (i : Nat) : UInt32 :=
  match locals[i]? with
  | some (.i32 w) => w
  | _ => 0

namespace Shifted

def value (locals : List Value) (x : Shifted) : UInt32 :=
  match x.base with
  | some i => number locals i + x.shift
  | none => x.shift

def step (shifts : List UInt32) (x : Shifted) : UInt32 :=
  match x.base with
  | some i => shifts.getD i 0
  | none => 0

end Shifted

def move (count : Nat) (v : Value) (s : UInt32) : Value :=
  match v with
  | .i32 w => .i32 (w + UInt32.ofNat count * s)
  | v => v

namespace Progress

/-- How many rounds go on with these locals: as many as the guards allow. -/
def rounds (p : Progress) (locals : List Value) : Nat :=
  if (p.used ++ p.guards.filterMap (·.base)).all (isNumber locals) then
    (p.guards.map fun x => Counting.rounds (x.value locals) (x.step p.shifts)).min?.getD 0
  else 0

def advance (p : Progress) (count : Nat) (locals : List Value) : List Value :=
  locals.zipWith (move count) p.shifts

end Progress

/-- How many rounds of a body need not be run, and the locals after them. -/
def ahead (body : Code) (locals : List Value) : Nat × List Value :=
  match Progress.finish? body (.start locals.length) with
  | some p => (p.rounds locals, p.advance (p.rounds locals) locals)
  | none => (0, locals)

end OpcodeConformance.Wasm.Counting
