import RelMap.Value.Text

/-!
The order of values. Two values are comparable when they are of one ordered kind, when both are
numbers, a truth value and an integer, or a text and a kind with one canonical text.
-/
namespace RelMap.Value

/-- Dates, times and identifiers compare with a text through their own text. -/
def hasCanonicalText : Value → Bool
  | .date _ => true
  | .dateTime _ => true
  | .instant _ => true
  | .time _ => true
  | .uuid _ => true
  | _ => false

def intOfBool (b : Bool) : Int := if b then 1 else 0

/-- The order of two values, if they are comparable. -/
def compare? : Value → Value → Option Ordering
  | .null, .null => some .eq
  | .int a, .int b => some (compare a b)
  | .int a, .float b => (Binary64.ofInt a).compare? b
  | .float a, .int b => a.compare? (Binary64.ofInt b)
  | .float a, .float b => a.compare? b
  | .bool a, .bool b => some (compare a b)
  | .bool a, .int b => some (compare (intOfBool a) b)
  | .int a, .bool b => some (compare a (intOfBool b))
  | .text a, .text b => some (compare a b)
  | .bytes a, .bytes b => some (compare a b)
  | .date a, .date b => some (a.compare b)
  | .dateTime a, .dateTime b => some (a.compare b)
  | .instant a, .instant b => some (a.compare b)
  | .time a, .time b => some (a.compare b)
  | .uuid a, .uuid b => some (a.compare b)
  | .text a, b => if b.hasCanonicalText then some (compare a b.display) else none
  | a, .text b => if a.hasCanonicalText then some (compare a.display b) else none
  | .json a, .json b => if a.equal b then some .eq else none
  | _, _ => none

/-- Whether a value other than `NULL` equals another in the order of values. -/
def looselyEqual (a b : Value) : Bool :=
  !a.isNull && compare? a b == some .eq

end RelMap.Value
