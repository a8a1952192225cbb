import OpcodeConformance.Bytes
import OpcodeConformance.Decimal

namespace OpcodeConformance.Json

def escape (c : Char) : List Char :=
  if c = '"' ∨ c = '\\' then ['\\', c]
  else if c = '\n' then ['\\', 'n']
  else if c = '\r' then ['\\', 'r']
  else if c = '\t' then ['\\', 't']
  else if c.toNat = 8 then ['\\', 'b']
  else if c.toNat = 12 then ['\\', 'f']
  else if c.toNat < 32 then
    ['\\', 'u', '0', '0', Nat.digitChar (c.toNat / 16), Nat.digitChar (c.toNat % 16)]
  else [c]

namespace Print

def text (s : String) : List Char := '"' :: (s.toList.flatMap escape ++ ['"'])

def number (n : Nat) : List Char := Decimal.digits n

def separated : List (List Char) → List Char
  | [] => []
  | [x] => x
  | x :: y :: rest => x ++ ',' :: separated (y :: rest)

def list (elements : List (List Char)) : List Char := '[' :: (separated elements ++ [']'])

def member (m : String × List Char) : List Char := text m.1 ++ ':' :: m.2

def object (members : List (String × List Char)) : List Char :=
  '\x7b' :: (separated (members.map member) ++ ['\x7d'])

def document (cs : List Char) : Bytes := Bytes.ofChars cs

end Print

end OpcodeConformance.Json
