import OpcodeConformance.Wasm.Module
import OpcodeConformance.Wasm.Text.Line

namespace OpcodeConformance.Wasm.Text

/-- What the names in code refer to: the number of each thing is the place of its name in the list.
Things without a name are listed too. -/
structure Scope where
  functions : List Name
  globals : List Name
  memories : List Name
  locals : List Name

def ValueType.ofWord? (w : List Char) : Option ValueType :=
  if w = "i32".toList then some .i32
  else if w = "i64".toList then some .i64
  else if w = "f32".toList then some .f32
  else if w = "f64".toList then some .f64
  else if w = "v128".toList then some .v128
  else if w = "funcref".toList then some .funcref
  else if w = "externref".toList then some .externref
  else none

def types? (ws : List (List Char)) : Option (List ValueType) := ws.mapM ValueType.ofWord?

def bareOps : List (String × Op) :=
  [("unreachable", .unreachable), ("drop", .drop),
   ("i32.add", .numeric .i32Add), ("i32.sub", .numeric .i32Sub), ("i32.mul", .numeric .i32Mul),
   ("i32.div_u", .numeric .i32DivU), ("i32.and", .numeric .i32And), ("i32.or", .numeric .i32Or),
   ("i32.eq", .numeric .i32Eq), ("i32.ge_u", .numeric .i32GeU), ("i32.eqz", .numeric .i32Eqz),
   ("i64.add", .numeric .i64Add), ("i64.mul", .numeric .i64Mul), ("i64.eq", .numeric .i64Eq),
   ("i64.ne", .numeric .i64Ne), ("i64.lt_u", .numeric .i64LtU),
   ("i64.extend_i32_u", .numeric .i64ExtendI32U), ("i64.extend_i32_s", .numeric .i64ExtendI32S)]

/-- The instructions that take the number of a memory, which is zero if it is left out. -/
def memoryOps : List (String × (Nat → Op)) :=
  [("memory.size", .memorySize), ("memory.grow", .memoryGrow)]

def accessOps : List (String × Access × (Access → Location → Op)) :=
  [("i32.load", .word32, .load), ("i32.load8_u", .byte, .load), ("i64.load", .word64, .load),
   ("i32.store", .word32, .store), ("i32.store8", .byte, .store), ("i64.store", .word64, .store)]

def find? {α : Type} (pairs : List (String × α)) (keyword : List Char) : Option α :=
  (pairs.find? fun p => p.1.toList = keyword).map (·.2)

def offsetMark : List Char := "offset=".toList
def alignmentMark : List Char := "align=".toList

def isMarked (w : List Char) : Bool := offsetMark.isPrefixOf w || alignmentMark.isPrefixOf w

/-- The number behind a mark, if the first word begins with it, and the words behind that. -/
def marked? (mark : List Char) (width absent : Nat) :
    List (List Char) → Option (Nat × List (List Char))
  | w :: ws =>
    if mark.isPrefixOf w then (Number.index? width (w.drop mark.length)).map (·, ws)
    else some (absent, w :: ws)
  | [] => some (absent, [])

def memory? (s : Scope) : List (List Char) → Option (Nat × List (List Char))
  | w :: ws => if isMarked w then some (0, w :: ws) else (reference? s.memories w).map (·, ws)
  | [] => some (0, [])

/-- The place of an access: a memory, an offset and an alignment in this order. The alignment must
be a power of two. -/
def location? (s : Scope) (a : Access) (ws : List (List Char)) : Option Location := do
  let (memory, ws) ← memory? s ws
  let (offset, ws) ← marked? offsetMark 64 0 ws
  let (alignment, ws) ← marked? alignmentMark 32 a.width ws
  if ws.isEmpty && Nat.pow 2 alignment.log2 = alignment then return ⟨memory, offset, alignment⟩
  else none

def const? (keyword w : List Char) : Option Value :=
  if keyword = "i32.const".toList then
    (Number.word? 32 w).map fun n => .i32 (UInt32.ofInt n)
  else if keyword = "i64.const".toList then
    (Number.word? 64 w).map fun n => .i64 (UInt64.ofInt n)
  else if keyword = "f32.const".toList then if Number.isFloat .single w then some .f32 else none
  else if keyword = "f64.const".toList then if Number.isFloat .double w then some .f64 else none
  else none

def lineWith? (s : Scope) (keyword w : List Char) : Option Line :=
  if keyword = "local.get".toList then (reference? s.locals w).map fun i => .op (.localGet i)
  else if keyword = "local.set".toList then (reference? s.locals w).map fun i => .op (.localSet i)
  else if keyword = "global.get".toList then
    (reference? s.globals w).map fun i => .op (.globalGet i)
  else if keyword = "global.set".toList then
    (reference? s.globals w).map fun i => .op (.globalSet i)
  else if keyword = "call".toList then (reference? s.functions w).map fun i => .op (.call i)
  else if keyword = "br".toList then some (.jump false w)
  else if keyword = "br_if".toList then some (.jump true w)
  else (const? keyword w).map fun v => .op (.const v)

def blockLine? (label : Name) (keyword : List Char) : Option Line :=
  if keyword = "block".toList then some (.opening ⟨.block, label, ⟨[], []⟩⟩)
  else if keyword = "loop".toList then some (.opening ⟨.loop, label, ⟨[], []⟩⟩)
  else if keyword = "if".toList then some (.opening ⟨.choice, label, ⟨[], []⟩⟩)
  else if keyword = "else".toList then some (.otherwise label)
  else if keyword = "end".toList then some (.ending label)
  else none

def line? (s : Scope) (keyword : List Char) (ws : List (List Char)) : Option Line :=
  match find? bareOps keyword, find? memoryOps keyword, find? accessOps keyword with
  | some o, _, _ => if ws.isEmpty then some (.op o) else none
  | _, some o, _ => do
    let (m, ws) ← memory? s ws
    if ws.isEmpty then return .op (o m) else none
  | _, _, some (a, o) => (location? s a ws).map fun place => .op (o a place)
  | _, _, _ =>
    match ws with
    | [] => blockLine? none keyword
    | [w] =>
      match lineWith? s keyword w with
      | some l => some l
      | none => if isName w then blockLine? (some w) keyword else none
    | _ => none

/-- Whether an instruction begins with the word. Numbers that are spelled as words do not begin
one. -/
def isKeyword : List Char → Bool
  | [] => false
  | c :: cs =>
    c.isLower && !isMarked (c :: cs) && c :: cs ≠ "inf".toList && !"nan".toList.isPrefixOf (c :: cs)

/-- Splits words in front of each keyword. What stands in front of the first one is kept apart. -/
def splitKeywords :
    List (List Char) → List (List Char) × List (List Char × List (List Char))
  | [] => ([], [])
  | w :: ws =>
    let (front, is) := splitKeywords ws
    if isKeyword w then ([], (w, front) :: is) else (w :: front, is)

def linesOfWords? (s : Scope) (ws : List (List Char)) : Option (List Line) :=
  match splitKeywords ws with
  | ([], is) => is.mapM fun i => line? s i.1 i.2
  | _ => none

end OpcodeConformance.Wasm.Text
