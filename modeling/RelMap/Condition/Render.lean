import RelMap.Condition.Basic
import RelMap.Dialect.Basic
import RelMap.Schema.Registry
import RelMap.Sql

/-!
Conditions as SQL. A scope says which models can be named and under which labels they stand in
the statement.
-/
namespace RelMap

open Text (joinWith)

/-- The models in reach of a condition. -/
structure Scope where
  registry : Registry
  /-- The model of fields that name none. -/
  model : String
  /-- The label of that model; columns are not qualified when it is empty. -/
  label : String
  /-- Identifiers are left bare without a dialect. -/
  dialect : Option Dialect := none
  /-- Joined models and their labels; the first one of a model counts. -/
  joined : List (String × String) := []

namespace Scope

def quote (s : Scope) (identifier : String) : String :=
  match s.dialect with
  | some d => d.quote identifier
  | none => identifier

/-- The label of a model in reach. -/
def labelOf (s : Scope) (model : String) : Except Error String :=
  if model = s.model then .ok s.label
  else match OrderedMap.find? model s.joined with
    | some label => .ok label
    | none => .error (.invalidQuery (.conditionNotJoined model s.model))

/-- The qualified column of a field. -/
def columnFor (s : Scope) (field : FieldRef) : Except Error String := do
  let model := field.model.getD s.model
  let column := s.quote (← s.registry.fieldToColumn model field.name)
  let label ← s.labelOf model
  return if label.isEmpty then column else s.quote label ++ "." ++ column

end Scope

/-- What a lookup asks of a column. -/
def Lookup.render (column : String) : Lookup → Sql
  | .isNull => ⟨column ++ " IS NULL", []⟩
  | .isNotNull => ⟨column ++ " IS NOT NULL", []⟩
  | .eq value => if value.isNull then ⟨column ++ " IS NULL", []⟩ else ⟨column ++ " = ?", [value]⟩
  | .ne value =>
    if value.isNull then ⟨column ++ " IS NOT NULL", []⟩ else ⟨column ++ " != ?", [value]⟩
  | .gt value => ⟨column ++ " > ?", [value]⟩
  | .gte value => ⟨column ++ " >= ?", [value]⟩
  | .lt value => ⟨column ++ " < ?", [value]⟩
  | .lte value => ⟨column ++ " <= ?", [value]⟩
  | .like pattern => ⟨column ++ " LIKE ?", [.text pattern]⟩
  | .notLike pattern => ⟨column ++ " NOT LIKE ?", [.text pattern]⟩
  | .between low high => ⟨column ++ " BETWEEN ? AND ?", [low, high]⟩
  | .oneOf values =>
    if values.isEmpty then ⟨"1 = 0", []⟩
    else ⟨column ++ " IN (" ++ joinWith ", " (Placeholder.listed values.length) ++ ")", values⟩
  | .noneOf values =>
    if values.isEmpty then ⟨"1 = 1", []⟩
    else ⟨column ++ " NOT IN (" ++ joinWith ", " (Placeholder.listed values.length) ++ ")", values⟩

def Comparison.render (s : Scope) (c : Comparison) : Except Error Sql :=
  return c.lookup.render (← s.columnFor c.field)

namespace Condition

mutual
/-- The SQL of a condition; empty when it asks for nothing. -/
def render (s : Scope) : Condition → Except Error Sql
  | .compare comparison => comparison.render s
  | .all conditions => return Sql.group " AND " (← renderAll s conditions)
  | .any conditions => return Sql.group " OR " (← renderAll s conditions)
  | .not condition => do
    let sql ← render s condition
    return if sql.text.isEmpty then ⟨"", []⟩
      else ⟨"NOT " ++ Sql.parenthesized sql.text, sql.args⟩
  | .raw sql args => .ok ⟨sql, args⟩

def renderAll (s : Scope) : List Condition → Except Error (List Sql)
  | [] => .ok []
  | condition :: rest => return (← render s condition) :: (← renderAll s rest)
end

/-- The SQL that asks for all of the conditions. -/
def conjunction (s : Scope) (conditions : List Condition) : Except Error Sql :=
  return Sql.conjunction (← renderAll s conditions)

end Condition
end RelMap
