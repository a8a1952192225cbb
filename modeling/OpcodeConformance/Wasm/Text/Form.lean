import OpcodeConformance.Wasm.Text.Token

namespace OpcodeConformance.Wasm.Text

/-- A list of forms. Words that stand side by side are kept together. -/
inductive Forms where
  | nil
  | words (ws : List (List Char)) (rest : Forms)
  | text (content : Bytes) (rest : Forms)
  | group (inner rest : Forms)
  deriving DecidableEq, Repr

namespace Forms

def cons (w : List Char) : Forms → Forms
  | words ws rest => words (w :: ws) rest
  | forms => words [w] forms

/-- Puts a token in front of the forms that follow it. The forms behind each closing parenthesis
whose partner has not been met wait in the list, the innermost group first. -/
def place : Token → List Forms → Option (List Forms)
  | .closing, fs => some (nil :: fs)
  | .opening, inner :: rest :: fs => some (group inner rest :: fs)
  | .word w, rest :: fs => some (cons w rest :: fs)
  | .text content, rest :: fs => some (text content rest :: fs)
  | _, _ => none

/-- The forms of a list of tokens, which are put together from the last token on. -/
def ofTokens? (ts : List Token) : Option Forms :=
  match ts.foldr (fun t fs => fs.bind (place t)) (some [nil]) with
  | some [forms] => some forms
  | _ => none

def startsWith (keyword : String) : Forms → Bool
  | words (w :: _) _ => w = keyword.toList
  | _ => false

def isNil : Forms → Bool
  | nil => true
  | _ => false

end Forms

def forms? (cs : List Char) : Option Forms := (tokens? cs).bind Forms.ofTokens?

end OpcodeConformance.Wasm.Text
