import OpcodeConformance.Bytes
import OpcodeConformance.Json.Problem

namespace OpcodeConformance.Json.Text

def unit? (a b c d : UInt8) : Option Nat :=
  [a, b, c, d].foldlM (fun n x => digit? x |>.map (16 * n + ·)) 0
where
  digit? (b : UInt8) : Option Nat :=
    if 48 ≤ b ∧ b ≤ 57 then some (b.toNat - 48)
    else if 97 ≤ b ∧ b ≤ 102 then some (b.toNat - 87)
    else if 65 ≤ b ∧ b ≤ 70 then some (b.toNat - 55)
    else none

def shortEscape? (b : UInt8) : Option UInt8 :=
  if b = 34 ∨ b = 92 ∨ b = 47 then some b
  else if b = 98 then some 8
  else if b = 102 then some 12
  else if b = 110 then some 10
  else if b = 114 then some 13
  else if b = 116 then some 9
  else none

def isLeading (n : Nat) : Bool := 0xd800 ≤ n && n < 0xdc00

def isTrailing (n : Nat) : Bool := 0xdc00 ≤ n && n < 0xe000

def pairValue (leading trailing : Nat) : Nat :=
  (leading - 0xd800) * 0x400 + (trailing - 0xdc00) + 0x10000

def encodePoint (n : Nat) : Bytes := String.utf8EncodeChar (Char.ofNat n)

def prepend (bs : Bytes) : Except Problem (Bytes × Bytes) → Except Problem (Bytes × Bytes)
  | .ok (content, rest) => .ok (bs ++ content, rest)
  | .error p => .error p

/-- The bytes of a text up to its closing quote, with escapes decoded. -/
def content : Bytes → Except Problem (Bytes × Bytes)
  | [] => .error .truncated
  | b :: bs =>
    if b = 34 then .ok ([], bs)
    else if b < 32 then .error .malformed
    else if b ≠ 92 then prepend [b] (content bs)
    else match bs with
      | [] => .error .truncated
      | e :: bs =>
        if e ≠ 117 then
          match shortEscape? e with
          | some x => prepend [x] (content bs)
          | none => .error .malformed
        else match bs with
          | a :: b :: c :: d :: bs =>
            match unit? a b c d with
            | none => .error .malformed
            | some n =>
              if isTrailing n then .error .malformed
              else if ¬isLeading n then prepend (encodePoint n) (content bs)
              else match bs with
                | [] => .error .truncated
                | [x] => if x = 92 then .error .truncated else .error .malformed
                | x :: y :: bs =>
                  if x ≠ 92 ∨ y ≠ 117 then .error .malformed
                  else match bs with
                    | a :: b :: c :: d :: bs =>
                      match unit? a b c d with
                      | none => .error .malformed
                      | some m =>
                        if isTrailing m then prepend (encodePoint (pairValue n m)) (content bs)
                        else .error .malformed
                    | _ => .error .truncated
          | _ => .error .truncated

def read (bs : Bytes) : Except Problem (String × Bytes) := do
  let (bytes, rest) ← content bs
  match Bytes.text? bytes with
  | some s => .ok (s, rest)
  | none => .error .malformed

def skip : Bytes → Except Problem Bytes
  | [] => .error .truncated
  | b :: bs =>
    if b = 34 then .ok bs
    else if b < 32 then .error .malformed
    else if b ≠ 92 then skip bs
    else match bs with
      | [] => .error .truncated
      | e :: bs =>
        if e ≠ 117 then if (shortEscape? e).isSome then skip bs else .error .malformed
        else match bs with
          | a :: b :: c :: d :: bs =>
            if (unit? a b c d).isSome then skip bs else .error .malformed
          | _ => .error .truncated

end OpcodeConformance.Json.Text
