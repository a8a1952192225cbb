import OpcodeConformance.Json.Decoder

namespace OpcodeConformance.Json

/-- A field of a record that is gathered in a value of type `σ`. -/
structure Field (σ : Type) where
  name : String
  required : Bool
  decode : Decoder (σ → σ)

def field {σ α : Type} (name : String) (d : Decoder α) (set : α → σ → σ) : Field σ :=
  ⟨name, false, d.map set⟩

def requiredField {σ α : Type} (name : String) (d : Decoder α) (set : α → σ → σ) : Field σ :=
  ⟨name, true, d.map set⟩

/-- A record is written as an object with its fields in any order, or as a list of them in their order.
Unknown members are passed over. -/
structure Record (σ : Type) where
  name : String
  initial : σ
  fields : List (Field σ)

namespace Record

variable {σ : Type}

def wanted (r : Record σ) : String := s!"struct {r.name}"

/-- The record read from members, `seen` being the names of the fields read so far. -/
def fromMembers (r : Record σ) : Nat → Bool → List String → σ → Decoder σ
  | 0, _, _, _, _ => .error .truncated
  | fuel + 1, first, seen, x, bs => do
    match ← nextKey first bs with
    | .closed rest =>
      match r.fields.find? fun f => f.required && !seen.contains f.name with
      | some f => .error (.missingField f.name)
      | none => .ok (x, rest)
    | .entry bs =>
      let (key, bs) ← Text.read bs
      match r.fields.find? fun f => f.name = key with
      | some f =>
        if seen.contains key then .error (.duplicateField key)
        else
          let (set, bs) ← f.decode (← colon bs)
          fromMembers r fuel false (key :: seen) (set x) bs
      | none =>
        let bs ← skipValue (← colon bs)
        fromMembers r fuel false seen x bs

def wantedList (r : Record σ) : String :=
  s!"struct {r.name} with {Decimal.ofNat r.fields.length} elements"

def listEnd (bs : Bytes) : Except Problem Bytes :=
  match skipBlanks bs with
  | [] => .error .truncated
  | b :: rest => if b = 93 then .ok rest else .error .malformed

/-- The record read from the elements of a list, `fields` being those not read so far and `read`
the number of the others. -/
def fromElements (r : Record σ) : List (Field σ) → Nat → σ → Decoder σ
  | [], _, x, bs => (listEnd bs).map (x, ·)
  | f :: fields, read, x, bs => do
    match ← nextElement (read = 0) bs with
    | .closed rest =>
      match (f :: fields).findIdx? (·.required) with
      | some i => .error (.tooShort (read + i) r.wantedList)
      | none => .ok (x, rest)
    | .entry bs =>
      let (set, bs) ← f.decode bs
      fromElements r fields (read + 1) (set x) bs

def decoder (r : Record σ) : Decoder σ := fun bs =>
  match skipBlanks bs with
  | [] => .error .truncated
  | b :: bs =>
    if b = 91 then fromElements r r.fields 0 r.initial bs
    else if b = 123 then fromMembers r (bs.length + 1) true [] r.initial bs
    else .error (refuse r.wanted (b :: bs))

end Record

end OpcodeConformance.Json
