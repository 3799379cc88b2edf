import RelMap.Error
import RelMap.OrderedMap

/-!
Rows and row sets, and the reading of values as the types that callers ask for.
-/
namespace RelMap

/-- Values under their columns, as many as there are columns. -/
structure Row where
  columns : List String
  values : List Value
  width_eq : values.length = columns.length

namespace Row

def ofValues (columns : List String) (values : List Value) : Except Error Row :=
  if h : values.length = columns.length then .ok ⟨columns, values, h⟩
  else .error (.hydration (.rowWidth values.length columns.length))

/-- The value under the first column of a name. -/
def get? (r : Row) (column : String) : Option Value :=
  OrderedMap.find? column (r.columns.zip r.values)

/-- Reads the value under a column. -/
def read {α : Type} (r : Row) (reader : Value → Except Error α) (column : String) :
    Except Error α :=
  match r.get? column with
  | some value => reader value
  | none => .error (.hydration (.missingColumn column))

/-- Reads the value at a position. -/
def readAt {α : Type} (r : Row) (reader : Value → Except Error α) (index : Nat) :
    Except Error α :=
  match r.values[index]? with
  | some value => reader value
  | none => .error (.hydration (.columnRange index r.values.length))

end Row

namespace Value

def mismatch {α : Type} (expected : String) (value : Value) : Except Error α :=
  .error (.hydration (.mismatch expected value))

/-- An integer; truth values count as zero and one. -/
def readInt : Value → Except Error Int
  | .int n => .ok n
  | .bool b => .ok (if b then 1 else 0)
  | value => mismatch "Int" value

/-- An integer between two bounds, both included. -/
def readBounded (target : String) (low high : Int) (value : Value) : Except Error Int := do
  let n ← value.readInt
  if high < n then .error (.hydration (.tooLarge target))
  else if n < low then .error (.hydration (.tooSmall target))
  else .ok n

def readInt32 (value : Value) : Except Error Int :=
  value.readBounded "i32" (-0x80000000) 0x7fffffff

def readUInt64 (value : Value) : Except Error Int :=
  value.readBounded "u64" 0 0xffffffffffffffff

def readFloat (value : Value) : Except Error Binary64 :=
  match value.asFloat? with
  | some x => .ok x
  | none => mismatch "Float" value

/-- A truth value; every integer but zero is true. -/
def readBool : Value → Except Error Bool
  | .bool b => .ok b
  | .int n => .ok (n != 0)
  | value => mismatch "Bool" value

def readText : Value → Except Error String
  | .text s => .ok s
  | value => mismatch "String" value

/-- An identifier, or the text of one. -/
def readUuid : Value → Except Error Uuid
  | .uuid u => .ok u
  | .text s =>
    match Uuid.parse? s with
    | some u => .ok u
    | none => .error (.hydration (.invalidUuid s "not 32 hexadecimal digits in a known form"))
  | value => mismatch "Uuid" value

def readValue (value : Value) : Except Error Value := .ok value

/-- Reads anything but `NULL`. -/
def readOptional {α : Type} (reader : Value → Except Error α) : Value → Except Error (Option α)
  | .null => .ok none
  | value => (reader value).map some

end Value

/-- The rows of a result that have not been taken yet. -/
structure RowSet where
  columns : List String
  rows : List (List Value)

namespace RowSet

/-- The number of rows left. -/
def remaining (s : RowSet) : Nat := s.rows.length

/-- Takes the next row. One of the wrong width is taken too and is an error. -/
def next (s : RowSet) : Except Error (Option Row) × RowSet :=
  match s.rows with
  | [] => (.ok none, s)
  | values :: rest => ((Row.ofValues s.columns values).map some, { s with rows := rest })

/-- The columns and the values of the next row, if there is one. -/
def first (s : RowSet) : Except Error (Option (List String × List Value)) :=
  return (← s.next.1).map fun row => (s.columns, row.values)

/-- Takes all rows, up to the first error. -/
def collectFrom (columns : List String) : List (List Value) → Except Error (List Row) × RowSet
  | [] => (.ok [], ⟨columns, []⟩)
  | values :: rest =>
    match Row.ofValues columns values with
    | .error e => (.error e, ⟨columns, rest⟩)
    | .ok row =>
      let (result, left) := collectFrom columns rest
      (result.map (row :: ·), left)

def collect (s : RowSet) : Except Error (List Row) × RowSet := collectFrom s.columns s.rows

/-- The results of `f` on all rows in turn, up to the first error. -/
def mapRows {α : Type} (s : RowSet) (f : Row → Except Error α) : Except Error (List α) :=
  s.rows.mapM fun values => do f (← Row.ofValues s.columns values)

/-- The only row; `sql` names the query when there is none or more than one. -/
def single (s : RowSet) (sql : String) : Except Error Row := do
  let (first, rest) := s.next
  match ← first with
  | none => .error (.doesNotExist sql)
  | some row =>
    match ← rest.next.1 with
    | none => .ok row
    | some _ => .error (.multipleObjects sql)

end RowSet
end RelMap
