import OpcodeConformance.Decimal.Shortest
import OpcodeConformance.Text.Quoted

namespace OpcodeConformance.Json

inductive Found where
  | integer (n : Int)
  /-- A number with a point or an exponent, or one out of range for integers, by its bits. -/
  | float (bits : UInt64)
  | boolean (b : Bool)
  | text (s : String)
  | null
  | list
  | object
  deriving DecidableEq, Repr

/-- The first problem of a document, reading from left to right. -/
inductive Problem where
  | malformed
  | truncated
  | wrongType (found : Found) (wanted : String)
  | outOfRange (n : Int) (wanted : String)
  | duplicateField (name : String)
  | missingField (name : String)
  /-- A record written as a list lacks the field at position `count`. -/
  | tooShort (count : Nat) (wanted : String)
  /-- A text has the right type but not the right content. -/
  | rejected (reason : String)
  deriving DecidableEq, Repr

def Found.message : Found → String
  | integer n => s!"integer `{Decimal.ofInt n}`"
  | float bits => s!"floating point `{Decimal.ofBits bits}`"
  | boolean b => if b then "boolean `true`" else "boolean `false`"
  | text s => s!"string {Text.quoted s}"
  | null => "null"
  | list => "sequence"
  | object => "map"

def Problem.message : Problem → String
  | malformed => "<syntax>"
  | truncated => "<eof>"
  | wrongType found wanted => s!"invalid type: {found.message}, expected {wanted}"
  | outOfRange n wanted => s!"invalid value: integer `{Decimal.ofInt n}`, expected {wanted}"
  | duplicateField name => s!"duplicate field `{name}`"
  | missingField name => s!"missing field `{name}`"
  | tooShort count wanted => s!"invalid length {Decimal.ofNat count}, expected {wanted}"
  | rejected reason => reason

end OpcodeConformance.Json
