import OpcodeConformance.Wasm.Usage

namespace OpcodeConformance.Wasm

namespace Usage

def size (ns : Sources) : Nat := (List.range (ns.log2 + 1)).countP ns.testBit

/-- The greater one of a number and the size of a set. Sources with small numbers need not be
counted. -/
def maxSize (n : Nat) (ns : Sources) : Nat := if ns.log2 < n then n else max n (size ns)

theorem size_le (ns : Sources) : size ns ≤ ns.log2 + 1 := by
  have h := List.countP_le_length (p := ns.testBit) (l := List.range (ns.log2 + 1))
  rwa [List.length_range] at h

theorem maxSize_eq (n : Nat) (ns : Sources) : maxSize n ns = max n (size ns) := by
  have h := size_le ns
  unfold maxSize
  split
  · exact (Nat.max_eq_left (by omega)).symm
  · rfl

/-- What a label stands for: the place where jumps to it meet, and what is needed there. -/
structure Target where
  meeting : Meeting
  needed : Sources
  other : Sources
  deriving DecidableEq, Repr

/-- What is needed behind some place, with the targets of the labels there. -/
structure Needs where
  needed : Sources
  targets : List Target
  /-- The greatest number of sources that are needed behind one call. -/
  most : Nat
  passed : Nat
  deriving DecidableEq, Repr

end Usage

def paddedWords (n : Nat) : Nat := (8 * n + 15) / 16 * 16

/-- The values that are left over by so many registers for floating point numbers, and so many for
others. -/
def leftOver : Nat → Nat → List ValueType → List ValueType
  | _, _, [] => []
  | floats, others, t :: ts =>
    match t.isFloat, floats, others with
    | true, n + 1, others => leftOver n others ts
    | false, floats, n + 1 => leftOver floats n ts
    | _, floats, others => t :: leftOver floats others ts

/-- How many words values take one behind the other, each at a multiple of its own size. -/
def wordsOf (ts : List ValueType) : Nat :=
  ts.foldl (fun n t => (n + t.words - 1) / t.words * t.words + t.words) 0

namespace FunctionType

def distantResults (t : FunctionType) : Nat := wordsOf (leftOver 2 2 t.results)

/-- How many words a function takes parameters from. One register less is there for them if it has
to be told where results are left. -/
def distantParams (t : FunctionType) : Nat :=
  wordsOf (leftOver 8 (if t.distantResults = 0 then 4 else 3) t.params)

def passed (t : FunctionType) : Nat :=
  paddedWords t.distantParams + paddedWords t.distantResults

end FunctionType

namespace Usage

namespace Needs

def atJump (n : Needs) (label : Nat) (h : Held) : Sources :=
  n.targets[label]?.elim 0 fun t => t.meeting.before t.needed h

/-- What is needed in front of an event. In a loop everything is needed that any round uses, or that
is needed at a label outside. -/
def before (n : Needs) : Event → Needs
  | .made i => { n with needed := n.needed % (1 <<< i) }
  | .used ns => { n with needed := n.needed ||| ns }
  | .called type =>
    { n with most := maxSize n.most n.needed, passed := max n.passed type.passed }
  | .stopped => { n with needed := 0 }
  | .jumped l h => { n with needed := n.atJump l h }
  | .mayJump l h => { n with needed := n.needed ||| n.atJump l h }
  | .blockEnds m => { n with needed := 0, targets := ⟨m, n.needed, 0⟩ :: n.targets }
  | .turned =>
    match n.targets with
    | t :: ts => { n with needed := 0, targets := { t with other := n.needed } :: ts }
    | [] => n
  | .blockBegins =>
    match n.targets with
    | t :: ts => { n with needed := n.needed ||| t.other, targets := ts }
    | [] => n
  | .loopEnds m h ns =>
    let outside := n.targets.foldl (fun ns t => ns ||| t.meeting.before t.needed h) ns
    let needed := (n.needed ||| outside) % (1 <<< (m.first + m.size))
    { n with targets := ⟨m, needed, 0⟩ :: n.targets }
  | .loopBegins h =>
    match n.targets with
    | t :: ts => { n with needed := t.meeting.before (n.needed ||| t.needed) h, targets := ts }
    | [] => n

end Needs

end Usage

open Usage

/-- What the events of a function need in front of all of them. The results are needed at its end,
and so is the place for them if there is one. -/
def Function.needs (functions : List FunctionType) (f : Function) : Needs :=
  let params := (List.range' 1 f.type.params.length).map Origin.source
  let place := f.type.params.length + 1
  let start : Trace :=
    { held := ⟨params ++ f.locals.map fun t => .constant (.zero t), []⟩
      known := []
      count := place + 1
      used := 0
      isLive := true
      events := [.blockBegins] }
  let t := (trace functions f.body start).fall
  let m : Meeting := ⟨t.count, [], f.type.results.length⟩
  let results := (List.range' m.first m.size).map Origin.source
  let kept := sourcesOf (if f.type.distantResults = 0 then results else .source place :: results)
  ((t.record (.blockEnds m)).use kept).events.foldl Needs.before ⟨0, [], 0, 0⟩

def keepingRegisters : Nat := 5

/-- How many bytes of stack a function takes while it runs. Every call takes two words, and the
registers that are used to keep values are saved first. Values that are computed from others take no
room, because they can be computed behind the call. -/
def Function.stackUse (functions : List FunctionType) (f : Function) : Nat :=
  let n := if f.body.hasCalls then f.needs functions else ⟨0, [], 0, 0⟩
  paddedWords 2 + paddedWords (min n.most keepingRegisters)
    + paddedWords (n.most - keepingRegisters) + n.passed

end OpcodeConformance.Wasm
