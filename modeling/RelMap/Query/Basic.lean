import RelMap.Include
import RelMap.Join.Planner
import RelMap.Mapper

/-!
Queries: a model, the conditions on its records, the relations to include, and the order and
window of the result. Every statement on a model starts from one.
-/
namespace RelMap

structure Query where
  mapper : Mapper
  model : String
  /-- The label of the model's own table. -/
  label : String
  conditions : List Condition := []
  includes : Includes := []
  orderBy : List SortTerm := []
  groupBy : List String := []
  having : Option Condition := none
  limit : Option Nat := none
  offset : Option Nat := none

namespace Query

/-- The query for all records of a model, whose table is labelled by its initial. -/
def ofModel (mapper : Mapper) (model : String) : Query :=
  { mapper, model
    label := match model.toList with
      | [] => "t"
      | c :: _ => String.ofList (Text.lowerChar c) }

/-- A field of the model of a query, for conditions that name it. -/
def field (q : Query) (name : String) : FieldRef := { name, model := some q.model }

def filter (q : Query) (condition : Condition) : Query :=
  { q with conditions := q.conditions ++ [condition] }

/-- Includes a path as it is, unless it is included already. -/
def includePath (q : Query) (path : String) : Query :=
  { q with includes := OrderedMap.insertNew path { path } q.includes }

/-- Includes a path; an earlier include of the path is replaced. -/
def includeWith (q : Query) (i : Include) : Query :=
  { q with includes := OrderedMap.insert i.path i q.includes }

def sortBy (q : Query) (term : SortTerm) : Query := { q with orderBy := q.orderBy ++ [term] }

/-- The joins that the includes of a query need. -/
def planJoins (q : Query) : Except Error (List Join) := do
  let step (p : Planner) (path : String) : Except Error Planner :=
    let segments := Planner.segments path
    if segments.contains "" then .error (.invalidQuery (.includePath path))
    else if q.mapper.options.maxIncludeDepth < segments.length then
      .error (.invalidQuery (.includeDepth path q.mapper.options.maxIncludeDepth))
    else p.follow q.model q.mapper.options.defaultJoin segments
  let p ← (OrderedMap.keys q.includes).foldlM step (Planner.start q.mapper.registry q.label)
  return p.joins

/-- The clause on groups and its arguments; nothing without a condition on them. -/
def havingSql (q : Query) (scope : Scope) : Except Error Sql :=
  match q.having with
  | none => .ok ⟨"", []⟩
  | some condition => do
    let sql ← condition.render scope
    return ⟨Sql.clause "HAVING" sql.text, sql.args⟩

end Query
end RelMap
