import OpcodeConformance.Wasm.Code
import OpcodeConformance.Wasm.Text.Number

namespace OpcodeConformance.Wasm.Text

abbrev Name := Option (List Char)

def isName : List Char → Bool
  | c :: _ => c = Piece.nameMark
  | _ => false

def reference? (names : List Name) (w : List Char) : Option Nat :=
  if isName w then names.idxOf? (some w) else Number.index? 32 w

inductive BlockKind where
  | block
  | loop
  | choice
  deriving DecidableEq, Repr

structure Opening where
  kind : BlockKind
  label : Name
  type : FunctionType
  deriving DecidableEq, Repr

inductive Line where
  | op (o : Op)
  | jump (isConditional : Bool) (label : List Char)
  | opening (o : Opening)
  | otherwise (label : Name)
  | ending (label : Name)
  deriving DecidableEq, Repr

/-- Code up to the end of the block that it stands in, and the second arm if its beginning has been
passed. -/
structure Tail where
  code : Code
  second : Option Code

namespace Tail

def before (o : Op) : List Tail → List Tail
  | t :: ts => { t with code := .op o t.code } :: ts
  | [] => []

def turn : List Tail → List Tail
  | ⟨c, none⟩ :: t :: ts => ⟨.done, some c⟩ :: t :: ts
  | ts => before .unpaired ts

def enclose (o : Opening) : List Tail → List Tail
  | ⟨c, second⟩ :: t :: ts =>
    match o.kind, second with
    | .block, none => { t with code := .block o.type c t.code } :: ts
    | .loop, none => { t with code := .loop o.type c t.code } :: ts
    | .choice, _ => { t with code := .choice o.type c (second.getD .done) t.code } :: ts
    | _, some _ => before .unpaired (t :: ts)
  | ts => before .unpaired ts

end Tail

/-- Whether the label behind an `else` or `end` is that of the innermost block, if there is one. -/
def repeats (labels : List Name) (label : Name) : Bool :=
  match labels, label with
  | innermost :: _, some _ => innermost = label
  | _, _ => true

/-- The code that lines stand for, in as many parts as there are ends of blocks without beginnings.
`labels` are those of the blocks that are open in front of the lines. -/
def tails? (labels : List Name) : List Line → Option (List Tail)
  | [] => some [⟨.done, none⟩]
  | .op o :: ls => (tails? labels ls).map (Tail.before o)
  | .jump isConditional w :: ls => do
    let l ← reference? labels w
    return Tail.before (if isConditional then .branchIf l else .branch l) (← tails? labels ls)
  | .opening o :: ls => (tails? (o.label :: labels) ls).map (Tail.enclose o)
  | .otherwise label :: ls =>
    if repeats labels label then (tails? labels ls).map Tail.turn else none
  | .ending label :: ls =>
    if repeats labels label then (tails? (labels.drop 1) ls).map (⟨.done, none⟩ :: ·) else none

/-- The code that lines stand for. Nothing is known of lines with a label that is not there. -/
def Code.ofLines? (ls : List Line) : Option Code :=
  (tails? [] ls).map fun
    | [t] => t.code
    | _ => .op .unpaired .done

end OpcodeConformance.Wasm.Text
