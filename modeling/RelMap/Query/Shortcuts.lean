import RelMap.Query.Aggregate
import RelMap.Query.Select

/-!
What is asked of a query most often, in one step: its records, their number, and aggregates of
one field.
-/
namespace RelMap.Query

/-- All fields of the records. -/
def selectAll (q : Query) : Select := { query := q }

def aggregate (q : Query) : Aggregate := { query := q }

/-- The only record. Two rows are enough to tell. -/
def findUnique [Regex.Engine] (q : Query) : Exchange Record := do
  match ← { q with limit := some 2 }.selectAll.findMany with
  | [] => throw (.doesNotExist (q.model ++ " matching query does not exist"))
  | [record] => return record
  | _ =>
    throw (.multipleObjects ("find_unique on " ++ q.model ++ " matched more than one row"))

def exists? (q : Query) : Exchange Bool := return 0 < (← q.selectAll.count)

/-- The result of one function of one field. -/
def compute (q : Query) (function : AggregateFunction) (field : String) : Exchange Value :=
  (q.aggregate.add function (some field) "result").scalar

/-- The result of one function of one field as a number, if it is one. -/
def computeFloat (q : Query) (function : AggregateFunction) (field : String) :
    Exchange (Option Binary64) :=
  return (← q.compute function field).asFloat?

end RelMap.Query
