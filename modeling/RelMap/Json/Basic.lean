import RelMap.Numeric.Binary64

/-!
JSON documents. A whole number and a floating-point number are different documents even where
they are equal as numbers. Objects list their entries in the order of their keys.
-/
namespace RelMap

inductive Json where
  | null
  | bool (value : Bool)
  | int (value : Int)
  | float (value : Binary64)
  | str (value : String)
  | arr (items : List Json)
  | obj (entries : List (String × Json))
  deriving Inhabited

namespace Json

/-- Sets the value of a key and keeps the order of the keys. -/
def insertEntry (key : String) (value : Json) : List (String × Json) → List (String × Json)
  | [] => [(key, value)]
  | (k, v) :: rest =>
    if key = k then (key, value) :: rest
    else if key < k then (key, value) :: (k, v) :: rest
    else (k, v) :: insertEntry key value rest

def findKey? (key : String) : List (String × Json) → Option Json
  | [] => none
  | (k, v) :: rest => if k = key then some v else findKey? key rest

/-- The object with these entries; of two with one key the later one stays. -/
def ofEntries (entries : List (String × Json)) : Json :=
  .obj (entries.foldl (fun done (k, v) => insertEntry k v done) [])

/-- The value of a key of an object. -/
def get? (key : String) : Json → Option Json
  | .obj entries => findKey? key entries
  | _ => none

def bool? : Json → Option Bool
  | .bool b => some b
  | _ => none

def int? : Json → Option Int
  | .int n => some n
  | _ => none

def text? : Json → Option String
  | .str s => some s
  | _ => none

/-- The items of an array. -/
def items? : Json → Option (List Json)
  | .arr items => some items
  | _ => none

/-- The entries of an object. -/
def entries? : Json → Option (List (String × Json))
  | .obj entries => some entries
  | _ => none

/-- A floating-point number; one that is not finite has no document and becomes `null`. -/
def ofBinary64 (x : Binary64) : Json :=
  if x.isFinite then .float x else .null

mutual
/-- Whether two documents are the same; floating-point numbers are compared as numbers. -/
def equal : Json → Json → Bool
  | .null, .null => true
  | .bool a, .bool b => a == b
  | .int a, .int b => a == b
  | .float a, .float b => a.equal b
  | .str a, .str b => a == b
  | .arr as, .arr bs => equalItems as bs
  | .obj as, .obj bs => equalEntries as bs
  | _, _ => false

def equalItems : List Json → List Json → Bool
  | [], [] => true
  | a :: as, b :: bs => equal a b && equalItems as bs
  | _, _ => false

def equalEntries : List (String × Json) → List (String × Json) → Bool
  | [], [] => true
  | (k, a) :: as, (l, b) :: bs => k == l && equal a b && equalEntries as bs
  | _, _ => false
end

end Json
end RelMap
