import RelMap.Exchange
import RelMap.Hydration
import RelMap.Query.Basic

/-!
Update statements. A field is assigned once, by the last of its assignments; a statement without
a condition is refused.
-/
namespace RelMap

open Text (joinWith)

/-- What becomes of a field. -/
inductive Assignment where
  | set (value : Value)
  | increment (amount : Int)
  | decrement (amount : Int)

/-- The assignment of a column, with its argument. -/
def Assignment.sql (column : String) : Assignment → Sql
  | .set value => ⟨column ++ " = ?", [value]⟩
  | .increment amount => ⟨column ++ " = " ++ column ++ " + ?", [.int amount]⟩
  | .decrement amount => ⟨column ++ " = " ++ column ++ " - ?", [.int amount]⟩

structure Update where
  query : Query
  assignments : List (String × Assignment) := []
  returning : List String := []

namespace Update

def assign (u : Update) (field : String) (assignment : Assignment) : Update :=
  { u with assignments := OrderedMap.insert field assignment u.assignments }

/-- Assigns all fields of a record. -/
def set (u : Update) (data : Record) : Update :=
  data.fields.foldl (fun u (field, value) => u.assign field (.set value)) u

def filter (u : Update) (condition : Condition) : Update :=
  { u with query := u.query.filter condition }

def returningFields (u : Update) (fields : List String) : Update :=
  { u with returning := u.returning ++ fields }

/-- The assignments in the order in which their fields were first assigned. -/
def assignmentSql (u : Update) : Except Error (List Sql) :=
  u.assignments.mapM fun (field, assignment) => do
    let m := u.query.mapper
    return assignment.sql (m.dialect.quote (← m.registry.fieldToColumn u.query.model field))

def sql (u : Update) : Except Error Sql := do
  let m := u.query.mapper
  if u.assignments.isEmpty then throw .noUpdateData
  let sets ← u.assignmentSql
  let filter ← Condition.conjunction (m.bareScope u.query.model) u.query.conditions
  if filter.text.isEmpty then throw (.unboundedUpdate u.query.model)
  let table := m.dialect.quote (← m.registry.modelToTable u.query.model)
  let returning ← m.returning u.query.model u.returning
  let text := "UPDATE " ++ table ++ " SET " ++ joinWith ", " (sets.map Sql.text)
    ++ Sql.clause "WHERE" filter.text ++ returning
  return ⟨m.dialect.finalize text, sets.flatMap Sql.args ++ filter.args⟩

def exec (u : Update) : Exchange Effect :=
  Exchange.during ("update " ++ u.query.model) do Exchange.effect (← u.sql)

/-- The updated records. -/
def execAndReturn (u : Update) : Exchange (List Record) :=
  Exchange.during ("update_returning " ++ u.query.model) do
    if u.returning.isEmpty then throw .noReturningFields
    let rows ← Exchange.rows (← u.sql)
    hydratePlain u.query.mapper.registry u.query.model rows

end Update
end RelMap
