import OpcodeConformance.Json.Skip
import OpcodeConformance.Table

namespace OpcodeConformance.Json

/-- Reads a value from the front of the bytes and leaves the rest. Reading goes strictly from left to
right, so the first problem of a document is the one that is told. -/
abbrev Decoder (α : Type) := Bytes → Except Problem (α × Bytes)

/-- The problem of a value that is not of the wanted type. The contents of containers are not
looked at, all other values are read. -/
def refuse (wanted : String) : Bytes → Problem
  | [] => .truncated
  | b :: bs =>
    let wrong (found : Found) : Problem := .wrongType found wanted
    if b = Container.opening .list then wrong .list
    else if b = Container.opening .object then wrong .object
    else if b = 34 then
      match Text.read bs with
      | .ok (s, _) => wrong (.text s)
      | .error p => p
    else if Number.starts b then
      match Number.read (b :: bs) with
      | .ok (n, _) => wrong n.found
      | .error p => p
    else
      let word (letters : Bytes) (found : Found) : Problem :=
        match literal letters (b :: bs) with
        | .ok _ => wrong found
        | .error p => p
      if b = 110 then word nullLetters .null
      else if b = 116 then word trueLetters (.boolean true)
      else if b = 102 then word falseLetters (.boolean false)
      else .malformed

def integerIn (wanted : String) (least greatest : Int) : Decoder Int := fun bs =>
  match skipBlanks bs with
  | [] => .error .truncated
  | b :: bs =>
    if Number.starts b then
      match Number.read (b :: bs) with
      | .error p => .error p
      | .ok (.float bits, _) => .error (.wrongType (.float bits) wanted)
      | .ok (.integer n, rest) =>
        if least ≤ n ∧ n ≤ greatest then .ok (n, rest) else .error (.outOfRange n wanted)
    else .error (refuse wanted (b :: bs))

def Decoder.map {α β : Type} (f : α → β) (d : Decoder α) : Decoder β := fun bs =>
  (d bs).map fun (x, rest) => (f x, rest)

def Decoder.refine {α β : Type} (f : α → Except String β) (d : Decoder α) : Decoder β :=
    fun bs => do
  let (x, rest) ← d bs
  match f x with
  | .ok y => .ok (y, rest)
  | .error reason => .error (.rejected reason)

def uint64 : Decoder UInt64 :=
  (integerIn "u64" 0 (UInt64.size - 1)).map fun n => UInt64.ofNat n.toNat

def uint32 : Decoder UInt32 :=
  (integerIn "u32" 0 (UInt32.size - 1)).map fun n => UInt32.ofNat n.toNat

def int64 : Decoder Int64 :=
  (integerIn "i64" Int64.minValue.toInt Int64.maxValue.toInt).map Int64.ofInt

def text : Decoder String := fun bs =>
  match skipBlanks bs with
  | [] => .error .truncated
  | b :: bs => if b = 34 then Text.read bs else .error (refuse "a string" (b :: bs))

def optional {α : Type} (d : Decoder α) : Decoder (Option α) := fun bs =>
  match skipBlanks bs with
  | b :: rest =>
    if b = 110 then (literal nullLetters (b :: rest)).map (none, ·) else d.map some bs
  | [] => d.map some bs

/-- How a container goes on: with an entry, or with its end. What follows is behind the closing
mark in the second case. -/
inductive Continuation where
  | entry (rest : Bytes)
  | closed (rest : Bytes)

def nextElement (first : Bool) (bs : Bytes) : Except Problem Continuation :=
  match skipBlanks bs with
  | [] => .error .truncated
  | b :: rest =>
    if b = 93 then .ok (.closed rest)
    else if first then .ok (.entry (b :: rest))
    else if b = 44 then
      match skipBlanks rest with
      | [] => .error .truncated
      | c :: rest => if c = 93 then .error .malformed else .ok (.entry (c :: rest))
    else .error .malformed

def nextKey (first : Bool) (bs : Bytes) : Except Problem Continuation :=
  match skipBlanks bs with
  | [] => .error .truncated
  | b :: rest =>
    if b = 125 then .ok (.closed rest)
    else if first then if b = 34 then .ok (.entry rest) else .error .malformed
    else if b = 44 then
      match skipBlanks rest with
      | [] => .error .truncated
      | c :: rest => if c = 34 then .ok (.entry rest) else .error .malformed
    else .error .malformed

def colon (bs : Bytes) : Except Problem Bytes :=
  match skipBlanks bs with
  | [] => .error .truncated
  | b :: rest => if b = 58 then .ok rest else .error .malformed

def elements {α : Type} (d : Decoder α) : Nat → Bool → Decoder (List α)
  | 0, _, _ => .error .truncated
  | fuel + 1, first, bs => do
    match ← nextElement first bs with
    | .closed rest => return ([], rest)
    | .entry bs =>
      let (x, bs) ← d bs
      let (xs, rest) ← elements d fuel false bs
      return (x :: xs, rest)

/-- A list. There are fewer elements than bytes. -/
def list {α : Type} (d : Decoder α) : Decoder (List α) := fun bs =>
  match skipBlanks bs with
  | [] => .error .truncated
  | b :: bs =>
    if b = 91 then elements d (bs.length + 1) true bs else .error (refuse "a sequence" (b :: bs))

def textKey : Decoder String := Text.read

/-- A key that is a number between the quotes, with nothing around it. -/
def numberKey {α : Type} (d : Decoder α) : Decoder α
  | [] => .error .malformed
  | b :: bs =>
    if Number.starts b then do
      let (n, rest) ← d (b :: bs)
      match rest with
      | 34 :: rest => .ok (n, rest)
      | _ => .error .malformed
    else .error .malformed

def members {κ α : Type} (key : Decoder κ) (d : Decoder α) : Nat → Bool → Decoder (List (κ × α))
  | 0, _, _ => .error .truncated
  | fuel + 1, first, bs => do
    match ← nextKey first bs with
    | .closed rest => return ([], rest)
    | .entry bs =>
      let (k, bs) ← key bs
      let (x, bs) ← d (← colon bs)
      let (xs, rest) ← members key d fuel false bs
      return ((k, x) :: xs, rest)

/-- An object with keys of one kind. Of several members with one key the last counts. -/
def table {κ α : Type} [Ord κ] [Std.TransOrd κ] [Std.LawfulEqOrd κ] (key : Decoder κ)
    (d : Decoder α) : Decoder (Table κ α) := fun bs =>
  match skipBlanks bs with
  | [] => .error .truncated
  | b :: bs =>
    if b = 123 then Decoder.map Table.ofList (members key d (bs.length + 1) true) bs
    else .error (refuse "a map" (b :: bs))

def decode {α : Type} (d : Decoder α) (document : Bytes) : Except Problem α := do
  let (x, rest) ← d document
  if (skipBlanks rest).isEmpty then .ok x else .error .malformed

end OpcodeConformance.Json
