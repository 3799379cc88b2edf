import RelMap.Exchange
import RelMap.Mapper
import RelMap.Record

/-!
Statements taken as they are, whose rows become records under the names of their columns or under
given names.
-/
namespace RelMap

structure RawQuery where
  mapper : Mapper
  sql : Sql
  /-- Columns and the fields that they are read as; the first one of a column counts. -/
  translations : List (String × String) := []

namespace RawQuery

def translate (q : RawQuery) (column field : String) : RawQuery :=
  { q with translations := q.translations ++ [(column, field)] }

def fieldName (q : RawQuery) (column : String) : String :=
  (OrderedMap.find? column q.translations).getD column

def toRecord (q : RawQuery) (row : Row) : Record :=
  Record.ofFields ((row.columns.map q.fieldName).zip row.values)

def exec (q : RawQuery) : Exchange Effect :=
  Exchange.during "raw exec" (Exchange.effect q.sql)

def find (q : RawQuery) : Exchange (List Record) :=
  Exchange.during "raw find" do
    let rows ← Exchange.rows q.sql
    rows.mapRows fun row => .ok (q.toRecord row)

/-- The only record. -/
def findOne (q : RawQuery) : Exchange Record :=
  Exchange.during "raw find_one" do return q.toRecord (← Exchange.onlyRow q.sql)

/-- All records, read into another shape. -/
def findAs {α : Type} (q : RawQuery) (shape : String) (decode : Json → Except String α) :
    Exchange (List α) := do
  let records ← q.find
  Exchange.done (records.mapM fun r => r.populate shape decode)

end RawQuery
end RelMap
