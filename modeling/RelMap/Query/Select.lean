import RelMap.Exchange
import RelMap.Hydration
import RelMap.Query.Basic

/-!
Select statements. Included models are joined, and every column is then returned under a name
made of the label of its table and its own name, so that rows can be split again. A limit on a
query with joins counts records of its own model and is applied before joining.
-/
namespace RelMap

open Text (joinWith)

structure Select where
  query : Query
  /-- The fields to return; all when empty. -/
  fields : List String := []
  distinct : Bool := false
  distinctOn : List String := []

/-- A select statement and the joins it reads. -/
structure SelectStatement where
  sql : Sql
  joins : List Join

namespace Select

/-- Drops duplicates. -/
def distinctRows (s : Select) : Select := { s with distinct := true }

/-- Keeps one row of each combination of fields. -/
def distinctRowsOn (s : Select) (fields : List String) : Select :=
  { s with distinct := true, distinctOn := fields }

/-- The column of a field under a label, if it has one. An expression stands for itself. -/
def columnExpr (s : Select) (label field : String) : Except Error String := do
  if Text.contains field '.' || Text.contains field '(' then return field
  let dialect := s.query.mapper.dialect
  let column := dialect.quote (← s.query.mapper.registry.fieldToColumn s.query.model field)
  return if label.isEmpty then column else dialect.quote label ++ "." ++ column

def columnList (s : Select) (label : String) (fields : List String) : Except Error String :=
  return joinWith ", " (← fields.mapM (s.columnExpr label))

def orderSql (s : Select) (label : String) : Except Error String :=
  return joinWith ", " (← s.query.orderBy.mapM fun term => do
    let expr ← s.columnExpr label term.field
    return s.query.mapper.dialect.orderTerm expr term.direction term.nulls)

/-- Whether distinct fields have to be grouped because the dialect cannot name them. -/
def groupsDistinct (s : Select) : Bool :=
  s.distinct && !s.distinctOn.isEmpty && !s.query.mapper.dialect.supportsDistinctOn

/-- The fields that are returned. -/
def listedFields (s : Select) : List String :=
  if s.groupsDistinct && s.fields.isEmpty then s.distinctOn else s.fields

/-- The fields that are grouped. -/
def groupedFields (s : Select) : List String :=
  if s.groupsDistinct && s.query.groupBy.isEmpty then s.distinctOn else s.query.groupBy

/-- What stands between `SELECT` and the columns. -/
def distinctSql (s : Select) : Except Error String := do
  if !s.distinctOn.isEmpty && s.query.mapper.dialect.supportsDistinctOn then
    return "DISTINCT ON (" ++ (← s.columnList s.query.label s.distinctOn) ++ ") "
  return if s.distinct then "DISTINCT " else ""

/-- A column of a table, returned under its label and its name. -/
def labelledColumn (d : Dialect) (label column : String) : String :=
  d.quote label ++ "." ++ d.quote column ++ " AS " ++ d.quote (label ++ "_" ++ column)

/-- The columns of the query's own model when other models are joined; those of its key are
always among them. -/
def ownColumns (s : Select) (model : Model) : Except Error (List String) := do
  let fields := s.listedFields
  if fields.isEmpty then return model.columnNames
  let key := model.primaryKeyFields.filter fun f => !fields.contains f.name
  return key.map Field.columnName ++ (← fields.mapM model.columnName)

/-- The columns of all joined models. -/
def joinedColumns (s : Select) (joins : List Join) : Except Error (List String) := do
  let dialect := s.query.mapper.dialect
  let columnsOf (j : Join) : Except Error (List String) :=
    match j.model with
    | none => .ok []
    | some name => do
      let model ← s.query.mapper.registry.model name
      return model.columnNames.map (labelledColumn dialect j.label)
  return (← joins.mapM columnsOf).flatten

/-- The columns that are returned. -/
def outputSql (s : Select) (model : Model) (joins : List Join) : Except Error String := do
  let dialect := s.query.mapper.dialect
  let label := s.query.label
  if joins.isEmpty then
    if s.listedFields.isEmpty then return dialect.quote label ++ ".*"
    s.columnList label s.listedFields
  else
    let own := (← s.ownColumns model).map (labelledColumn dialect label)
    return joinWith ", " (own ++ (← s.joinedColumns joins))

/-- The scope of the conditions: the query's own model and those joined. -/
def scope (s : Select) (joins : List Join) : Scope where
  registry := s.query.mapper.registry
  model := s.query.model
  label := s.query.label
  dialect := some s.query.mapper.dialect
  joined := joins.filterMap fun j => j.model.map fun model => (model, j.label)

/-- The statement of a select, with the joins it reads. -/
def statement (s : Select) : Except Error SelectStatement := do
  let q := s.query
  let dialect := q.mapper.dialect
  let model ← q.mapper.registry.model q.model
  let joins ← q.planJoins
  let distinct ← s.distinctSql
  let output ← s.outputSql model joins
  let scope := s.scope joins
  let filter ← Condition.conjunction scope q.conditions
  let order ← s.orderSql q.label
  let paging := dialect.paging q.limit q.offset
  let pagesInside := !joins.isEmpty && !paging.isEmpty
  if pagesInside && Condition.anyMentionsOther q.model q.conditions then
    throw (.invalidQuery (.pagedConditions q.model))
  let table := dialect.quote model.table ++ " AS " ++ dialect.quote q.label
  let filterSql := Sql.clause "WHERE" filter.text
  let orderSql := Sql.clause "ORDER BY" order
  let pagingSql := Sql.clause "" paging
  let source :=
    if pagesInside then
      "(SELECT * FROM " ++ table ++ filterSql ++ orderSql ++ pagingSql ++ ") AS "
        ++ dialect.quote q.label
    else table
  let joinSql := joinWith "" (joins.map fun j => " " ++ j.sql dialect)
  let groupSql := Sql.clause "GROUP BY" (← s.columnList q.label s.groupedFields)
  let having ← q.havingSql scope
  let text := "SELECT " ++ distinct ++ output ++ " FROM " ++ source ++ joinSql
    ++ (if pagesInside then "" else filterSql) ++ groupSql ++ having.text ++ orderSql
    ++ (if pagesInside then "" else pagingSql)
  return { sql := ⟨dialect.finalize text, filter.args ++ having.args⟩, joins }

def sql (s : Select) : Except Error Sql := return (← s.statement).sql

/-- What a count lists of the rows that it counts in a subquery. -/
def countedSql (s : Select) : Except Error String :=
  match [s.distinctOn, s.fields, s.query.groupBy].find? (!·.isEmpty) with
  | some fields => s.columnList "" fields
  | none => .ok "*"

/-- The statement that counts the records of a select. Includes, order and window do not matter;
rows that are distinct or grouped are counted in a subquery. -/
def countSql (s : Select) : Except Error Sql := do
  let q := s.query
  let dialect := q.mapper.dialect
  let table := dialect.quote (← q.mapper.registry.modelToTable q.model)
  let scope := q.mapper.bareScope q.model
  let filter ← Condition.conjunction scope q.conditions
  let filterSql := Sql.clause "WHERE" filter.text
  if !s.distinct && q.groupBy.isEmpty then
    return ⟨dialect.finalize ("SELECT COUNT(*) FROM " ++ table ++ filterSql), filter.args⟩
  let output ← s.countedSql
  let groupSql := Sql.clause "GROUP BY" (← s.columnList "" q.groupBy)
  let having ← q.havingSql scope
  let inner := "SELECT " ++ (if s.distinct then "DISTINCT " else "") ++ output ++ " FROM " ++ table
    ++ filterSql ++ groupSql ++ having.text
  return ⟨dialect.finalize
    ("SELECT COUNT(*) FROM (" ++ inner ++ ") AS " ++ dialect.quote "counted"),
    filter.args ++ having.args⟩

/-- All records. -/
def findMany [Regex.Engine] (s : Select) : Exchange (List Record) :=
  Exchange.during ("find_many " ++ s.query.model) do
    let statement ← s.statement
    let rows ← Exchange.rows statement.sql
    hydrate s.query.mapper.registry s.query.model s.query.label statement.joins s.query.includes
      rows

/-- All records, read into another shape. -/
def findManyAs [Regex.Engine] {α : Type} (s : Select) (shape : String)
    (decode : Json → Except String α) : Exchange (List α) := do
  let records ← s.findMany
  Exchange.done (records.mapM fun r => r.populate shape decode)

/-- The first record, if there is one. -/
def findFirst [Regex.Engine] (s : Select) : Exchange (Option Record) := do
  return (← { s with query := { s.query with limit := some 1 } }.findMany).head?

/-- The number of records. -/
def count (s : Select) : Exchange Int :=
  Exchange.during ("count " ++ s.query.model) do
    (← Exchange.onlyRow (← s.countSql)).readAt Value.readInt 0

end Select
end RelMap
