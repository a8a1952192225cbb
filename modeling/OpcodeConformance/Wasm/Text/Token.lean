import OpcodeConformance.Bytes

namespace OpcodeConformance.Wasm.Text

inductive Token where
  | opening
  | closing
  | word (letters : List Char)
  | text (content : Bytes)
  deriving DecidableEq, Repr

/-- A token, a letter of a word, or what stands between tokens. -/
inductive Piece where
  | opening
  | closing
  | gap
  | letter (c : Char)
  | text (content : Bytes)
  deriving DecidableEq, Repr

namespace Piece

def wordMarks : List Char :=
  ['!', '#', '$', '%', '&', Char.ofNat 39, '*', '+', '-', '.', '/', ':', '<', '=', '>', '?', '@',
   '\\', '^', '_', Char.ofNat 96, '|', '~']

def isLetter (c : Char) : Bool := c.isAlphanum || wordMarks.contains c

def isSpace (c : Char) : Bool := c = ' ' || c = '\n' || c = '\r' || c = '\t'

/-- Marks that change the direction of writing. They are refused, because with them a text can look
different from what it says. -/
def isMisleading (c : Char) : Bool :=
  [0x202a, 0x202b, 0x202d, 0x202e, 0x2066, 0x2067, 0x2068, 0x2069, 0x206c].contains c.toNat

def digit? (c : Char) : Option Nat :=
  if '0' ≤ c ∧ c ≤ '9' then some (c.toNat - 48)
  else if 'a' ≤ c ∧ c ≤ 'f' then some (c.toNat - 87)
  else if 'A' ≤ c ∧ c ≤ 'F' then some (c.toNat - 55)
  else none

def escape? (c : Char) : Option UInt8 :=
  if c = '"' ∨ c = '\\' ∨ c = Char.ofNat 39 then some (UInt8.ofNat c.toNat)
  else if c = 't' then some 9
  else if c = 'n' then some 10
  else if c = 'r' then some 13
  else none

/-- What the characters read so far belong to. Texts are kept with their last byte first. -/
inductive Place where
  | between
  | text (content : Bytes)
  /-- Inside an escape by code point; the value of its digits so far, and whether an underscore
  must be followed by another digit. -/
  | codePoint (content : Bytes) (value : Option Nat) (wantsDigit : Bool)
  | lineComment
  /-- Inside a block comment, with the number of comments around it. -/
  | blockComment (outer : Nat)

def pieces : Place → List Char → Option (List Piece)
  | .between, [] => some []
  | .between, '(' :: ';' :: cs => pieces (.blockComment 0) cs
  | .between, ';' :: ';' :: cs => pieces .lineComment cs
  | .between, '(' :: cs => (pieces .between cs).map (.opening :: ·)
  | .between, ')' :: cs => (pieces .between cs).map (.closing :: ·)
  | .between, '"' :: cs => pieces (.text []) cs
  | .between, c :: cs =>
    if isSpace c then (pieces .between cs).map (.gap :: ·)
    else if isLetter c then (pieces .between cs).map (.letter c :: ·)
    else none
  | .lineComment, [] => some []
  | .lineComment, c :: cs =>
    if c = '\n' ∨ c = '\r' then (pieces .between cs).map (.gap :: ·)
    else if isMisleading c then none
    else pieces .lineComment cs
  | .blockComment outer, '(' :: ';' :: cs => pieces (.blockComment (outer + 1)) cs
  | .blockComment 0, ';' :: ')' :: cs => (pieces .between cs).map (.gap :: ·)
  | .blockComment (outer + 1), ';' :: ')' :: cs => pieces (.blockComment outer) cs
  | .blockComment outer, c :: cs =>
    if isMisleading c then none else pieces (.blockComment outer) cs
  | .blockComment _, [] => none
  | .text content, '"' :: cs => (pieces .between cs).map (.text content.reverse :: ·)
  | .text content, '\\' :: 'u' :: '\x7b' :: cs => pieces (.codePoint content none false) cs
  | .text content, '\\' :: c :: cs =>
    match escape? c with
    | some b => pieces (.text (b :: content)) cs
    | none =>
      match cs with
      | d :: cs =>
        match digit? c, digit? d with
        | some high, some low => pieces (.text (UInt8.ofNat (16 * high + low) :: content)) cs
        | _, _ => none
      | [] => none
  | .text content, c :: cs =>
    if c.toNat < 32 ∨ c.toNat = 127 ∨ isMisleading c then none
    else pieces (.text ((String.utf8EncodeChar c).reverse ++ content)) cs
  | .text _, [] => none
  | .codePoint content value wantsDigit, c :: cs =>
    match digit? c, value with
    | some d, none => pieces (.codePoint content (some d) false) cs
    | some d, some n =>
      if n < 0x110000 then pieces (.codePoint content (some (16 * n + d)) false) cs else none
    | none, some n =>
      if c = '_' then pieces (.codePoint content value true) cs
      else if c = '\x7d' ∧ !wantsDigit ∧ n.isValidChar then
        pieces (.text ((String.utf8EncodeChar (Char.ofNat n)).reverse ++ content)) cs
      else none
    | none, none => none
  | .codePoint .., [] => none

def startsText : List Piece → Bool
  | .text _ :: _ => true
  | _ => false

def startsToken : List Piece → Bool
  | .letter _ :: _ => true
  | .text _ :: _ => true
  | _ => false

def nameMark : Char := '$'

/-- A name whose letters are a text. It must not be empty. -/
def quotedName? (content : Bytes) : Option Token := do
  let name ← Bytes.text? content
  if name.isEmpty then none else return .word (nameMark :: name.toList)

/-- Joins the letters of words. A text must not touch a word or another text, but it can be all of a
name behind its mark. -/
def join : List Piece → Option (List Token)
  | [] => some []
  | .gap :: ps => join ps
  | .opening :: ps => (join ps).map (.opening :: ·)
  | .closing :: ps => (join ps).map (.closing :: ·)
  | .text content :: ps => if startsToken ps then none else (join ps).map (.text content :: ·)
  | .letter c :: .text content :: ps =>
    if c = nameMark ∧ !startsToken ps then do return (← quotedName? content) :: (← join ps)
    else none
  | .letter c :: .letter d :: ps =>
    if startsText ps then none
    else
      match join (.letter d :: ps) with
      | some (.word w :: ts) => some (.word (c :: w) :: ts)
      | _ => none
  | .letter c :: ps => (join ps).map (.word [c] :: ·)

end Piece

def Token.isWhole (t : Token) : Bool := t ≠ .word [Piece.nameMark]

/-- The tokens of a text; nothing if it is not made of tokens. Texts are decoded and comments dropped
first, and then the letters of words are joined. -/
def tokens? (cs : List Char) : Option (List Token) :=
  ((Piece.pieces .between cs).bind Piece.join).filter fun ts => ts.all Token.isWhole

end OpcodeConformance.Wasm.Text
