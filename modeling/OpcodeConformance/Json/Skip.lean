import OpcodeConformance.Json.Number
import OpcodeConformance.Json.Text

namespace OpcodeConformance.Json

def isBlank (b : UInt8) : Bool := b = 32 || b = 9 || b = 10 || b = 13

def skipBlanks (bs : Bytes) : Bytes := bs.dropWhile isBlank

def literal : Bytes → Bytes → Except Problem Bytes
  | [], bs => .ok bs
  | _ :: _, [] => .error .truncated
  | w :: ws, b :: bs => if b = w then literal ws bs else .error .malformed

def nullLetters : Bytes := [110, 117, 108, 108]
def trueLetters : Bytes := [116, 114, 117, 101]
def falseLetters : Bytes := [102, 97, 108, 115, 101]

inductive Container where
  | list
  | object
  deriving DecidableEq, Repr

namespace Container

def opening : Container → UInt8
  | list => 91
  | object => 123

def closing : Container → UInt8
  | list => 93
  | object => 125

end Container

def skipKey (bs : Bytes) : Except Problem Bytes :=
  match skipBlanks bs with
  | 34 :: bs => do
    match skipBlanks (← Text.skip bs) with
    | 58 :: bs => .ok bs
    | [] => .error .truncated
    | _ => .error .malformed
  | [] => .error .truncated
  | _ => .error .malformed

/-- Passes over a value that is no container. Its number, if it is one, may have any size. -/
def skipScalar : Bytes → Except Problem Bytes
  | [] => .error .truncated
  | b :: bs =>
    if b = 34 then Text.skip bs
    else if Number.starts b then (Number.parts .malformed (b :: bs)).map (·.2)
    else if b = 110 then literal nullLetters (b :: bs)
    else if b = 116 then literal trueLetters (b :: bs)
    else if b = 102 then literal falseLetters (b :: bs)
    else .error .malformed

inductive Standing where
  | before
  | after
  deriving DecidableEq, Repr

/-- Passes over values until the containers in `inside`, the innermost first, are closed. -/
def skipLoop : Nat → Standing → List Container → Bytes → Except Problem Bytes
  | 0, _, _, _ => .error .truncated
  | fuel + 1, .before, inside, bs =>
    match skipBlanks bs with
    | [] => .error .truncated
    | b :: bs =>
      let enter (c : Container) : Except Problem Bytes :=
        match skipBlanks bs with
        | [] => .error .truncated
        | d :: ds =>
          if d = c.closing then skipLoop fuel .after inside ds
          else match c with
            | .list => skipLoop fuel .before (.list :: inside) bs
            | .object => do skipLoop fuel .before (.object :: inside) (← skipKey bs)
      if b = Container.opening .list then enter .list
      else if b = Container.opening .object then enter .object
      else do skipLoop fuel .after inside (← skipScalar (b :: bs))
  | _ + 1, .after, [], bs => .ok bs
  | fuel + 1, .after, c :: inside, bs =>
    match skipBlanks bs with
    | [] => .error .truncated
    | b :: bs =>
      if b = c.closing then skipLoop fuel .after inside bs
      else if b = 44 then
        match c with
        | .list => skipLoop fuel .before (c :: inside) bs
        | .object => do skipLoop fuel .before (c :: inside) (← skipKey bs)
      else .error .malformed

/-- Passes over one value. Every second step takes a byte at least. -/
def skipValue (bs : Bytes) : Except Problem Bytes := skipLoop (2 * bs.length + 2) .before [] bs

end OpcodeConformance.Json
