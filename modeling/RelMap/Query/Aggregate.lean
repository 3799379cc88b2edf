import RelMap.Exchange
import RelMap.Hydration
import RelMap.Query.Basic

/-!
Aggregate statements: functions over the records of a model, for each group of them.
-/
namespace RelMap

open Text (joinWith)

inductive AggregateFunction where
  | count
  | sum
  | avg
  | min
  | max
  deriving DecidableEq

def AggregateFunction.sql : AggregateFunction → String
  | .count => "COUNT"
  | .sum => "SUM"
  | .avg => "AVG"
  | .min => "MIN"
  | .max => "MAX"

/-- A function of a field, or of whole rows. -/
structure AggregateCall where
  function : AggregateFunction
  field : Option String
  deriving DecidableEq

/-- A call whose result is returned under a label. -/
structure Aggregation where
  call : AggregateCall
  label : String
  deriving DecidableEq

structure Aggregate where
  query : Query
  fields : List String := []
  aggregations : List Aggregation := []
  callOrder : List (AggregateCall × Direction) := []

namespace Aggregate

def add (a : Aggregate) (function : AggregateFunction) (field : Option String) (label : String) :
    Aggregate :=
  { a with aggregations := a.aggregations ++ [⟨⟨function, field⟩, label⟩] }

def select (a : Aggregate) (fields : List String) : Aggregate :=
  { a with fields := a.fields ++ fields }

def groupBy (a : Aggregate) (fields : List String) : Aggregate :=
  { a with query := { a.query with groupBy := a.query.groupBy ++ fields } }

def sortByCall (a : Aggregate) (function : AggregateFunction) (field : Option String)
    (direction : Direction) : Aggregate :=
  { a with callOrder := a.callOrder ++ [(⟨function, field⟩, direction)] }

def column (a : Aggregate) (field : String) : Except Error String :=
  return a.query.mapper.dialect.quote
    (← a.query.mapper.registry.fieldToColumn a.query.model field)

def callSql (a : Aggregate) (call : AggregateCall) : Except Error String :=
  match call.field with
  | none => .ok (call.function.sql ++ "(*)")
  | some field => return call.function.sql ++ "(" ++ (← a.column field) ++ ")"

/-- What is returned: the fields and then the results of the calls. -/
def outputs (a : Aggregate) : Except Error (List String) := do
  let fields ← a.fields.mapM a.column
  let calls ← a.aggregations.mapM fun g => do
    return (← a.callSql g.call) ++ " AS " ++ a.query.mapper.dialect.quote g.label
  return fields ++ calls

/-- The terms of the order: fields first, then calls. -/
def orderTerms (a : Aggregate) : Except Error (List String) := do
  let dialect := a.query.mapper.dialect
  let fields ← a.query.orderBy.mapM fun term => do
    return dialect.orderTerm (← a.column term.field) term.direction term.nulls
  let calls ← a.callOrder.mapM fun (call, direction) => do
    return dialect.orderTerm (← a.callSql call) direction none
  return fields ++ calls

def sql (a : Aggregate) : Except Error Sql := do
  let q := a.query
  let dialect := q.mapper.dialect
  let outputs ← a.outputs
  if outputs.isEmpty then throw .noAggregations
  let table := dialect.quote (← q.mapper.registry.modelToTable q.model)
  let scope := q.mapper.bareScope q.model
  let filter ← Condition.conjunction scope q.conditions
  let groups ← q.groupBy.mapM a.column
  let having ← q.havingSql scope
  let order ← a.orderTerms
  let text := "SELECT " ++ joinWith ", " outputs ++ " FROM " ++ table
    ++ Sql.clause "WHERE" filter.text ++ Sql.clause "GROUP BY" (joinWith ", " groups)
    ++ having.text ++ Sql.clause "ORDER BY" (joinWith ", " order)
    ++ Sql.clause "" (dialect.paging q.limit q.offset)
  return ⟨dialect.finalize text, filter.args ++ having.args⟩

def rows (a : Aggregate) : Exchange RowSet := do Exchange.rows (← a.sql)

/-- One record for each group. -/
def exec (a : Aggregate) : Exchange (List Record) :=
  Exchange.during ("aggregate " ++ a.query.model) do
    hydratePlain a.query.mapper.registry a.query.model (← a.rows)

/-- The first value of the first row, `NULL` where there is none. -/
def scalar (a : Aggregate) : Exchange Value :=
  Exchange.during ("aggregate " ++ a.query.model) do
    match ← (← a.rows).next.1 with
    | some row => return row.values.headD .null
    | none => return .null

end Aggregate
end RelMap
