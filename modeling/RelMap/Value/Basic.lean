import RelMap.Calendar.Basic
import RelMap.Json.Basic
import RelMap.Uuid

/-!
The values that fields hold and statements carry, and the keys that identify records.
-/
namespace RelMap

/-- A value of a field or an argument of a statement. -/
inductive Value where
  | null
  | bool (value : Bool)
  /-- A signed integer of 64 bits. -/
  | int (value : Int)
  | float (value : Binary64)
  | text (value : String)
  | bytes (value : List UInt8)
  | date (value : Date)
  | dateTime (value : DateTime)
  /-- An instant, as the clock of UTC shows it. -/
  | instant (value : DateTime)
  | time (value : TimeOfDay)
  | uuid (value : Uuid)
  | json (value : Json)
  | list (values : List Value)
  deriving Inhabited

namespace Value

def isNull : Value → Bool
  | .null => true
  | _ => false

def asBool? : Value → Option Bool
  | .bool b => some b
  | _ => none

def asInt? : Value → Option Int
  | .int n => some n
  | _ => none

/-- The value as a floating-point number; an integer is rounded to one. -/
def asFloat? : Value → Option Binary64
  | .float x => some x
  | .int n => some (.ofInt n)
  | _ => none

def asText? : Value → Option String
  | .text s => some s
  | _ => none

/-- The least and the greatest integer of 64 bits. -/
def fitsInt (n : Int) : Bool := -0x8000000000000000 ≤ n && n ≤ 0x7fffffffffffffff

mutual
/-- Whether two values are the same; floating-point numbers are compared as numbers. -/
def equal : Value → Value → Bool
  | .null, .null => true
  | .bool a, .bool b => a == b
  | .int a, .int b => a == b
  | .float a, .float b => a.equal b
  | .text a, .text b => a == b
  | .bytes a, .bytes b => a == b
  | .date a, .date b => a == b
  | .dateTime a, .dateTime b => a == b
  | .instant a, .instant b => a == b
  | .time a, .time b => a == b
  | .uuid a, .uuid b => a == b
  | .json a, .json b => a.equal b
  | .list as, .list bs => equalAll as bs
  | _, _ => false

def equalAll : List Value → List Value → Bool
  | [], [] => true
  | a :: as, b :: bs => equal a b && equalAll as bs
  | _, _ => false
end

end Value
end RelMap
