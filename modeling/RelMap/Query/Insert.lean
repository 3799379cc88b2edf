import RelMap.Exchange
import RelMap.Query.Basic

/-!
Insert statements of one or more rows. The first row names the columns; every other row must have
the same fields, in any order.
-/
namespace RelMap

open Text (joinWith)

/-- What to do about a row whose key is already there. -/
inductive ConflictAction where
  | ignore
  | replace
  /-- Overwrite the `set` fields, all but the target when there are none; the target is the
  primary key when it is empty. -/
  | update (target set : List String)
  deriving DecidableEq

structure Insert where
  query : Query
  rows : List Record
  conflict : Option ConflictAction := none
  returning : List String := []

namespace Insert

def addRow (i : Insert) (row : Record) : Insert := { i with rows := i.rows ++ [row] }

def onConflict (i : Insert) (action : ConflictAction) : Insert :=
  { i with conflict := some action }

def returningFields (i : Insert) (fields : List String) : Insert := { i with returning := fields }

/-- The words before the table. -/
def verb (i : Insert) : String :=
  match i.conflict, i.query.mapper.dialect.conflictSyntax with
  | some .ignore, .insertOr => "INSERT OR IGNORE INTO"
  | some .ignore, .onDuplicateKey => "INSERT IGNORE INTO"
  | some .replace, .insertOr => "INSERT OR REPLACE INTO"
  | some .replace, .onDuplicateKey => "REPLACE INTO"
  | _, _ => "INSERT INTO"

/-- Whether a row has exactly these fields. -/
def hasFields (fields : List String) (row : Record) : Bool :=
  row.size == fields.length && fields.all row.contains

/-- The position of the first row whose fields differ from those of the first row. -/
def oddRow? (fields : List String) (rows : List Record) : Option Nat :=
  rows.findIdx? fun row => !hasFields fields row

/-- The columns that tell whether a row is already there. -/
def targetColumns (i : Insert) (target : List String) : Except Error (List String) :=
  if target.isEmpty then
    return (← i.query.mapper.registry.model i.query.model).primaryKeyFields.map Field.columnName
  else i.query.mapper.registry.fieldsToColumns i.query.model target

/-- The columns that are overwritten, given those that are inserted and those of the target. -/
def overwritten (i : Insert) (columns target set : List String) : Except Error (List String) :=
  if set.isEmpty then .ok (columns.filter fun c => !target.contains c)
  else i.query.mapper.registry.fieldsToColumns i.query.model set

/-- The clause that overwrites columns of the row that is already there. -/
def upsertClause (i : Insert) (columns target set : List String) : Except Error String := do
  let m := i.query.mapper
  let q := m.dialect.quote
  let target ← i.targetColumns target
  let set ← i.overwritten columns target set
  if m.dialect.conflictSyntax = .onDuplicateKey then
    if set.isEmpty then throw (.invalidQuery (.emptyUpsert i.query.model))
    return " ON DUPLICATE KEY UPDATE "
      ++ joinWith ", " (set.map fun c => q c ++ " = VALUES(" ++ q c ++ ")")
  let clause := " ON CONFLICT (" ++ m.quoteAll target ++ ") DO "
  if set.isEmpty then return clause ++ "NOTHING"
  return clause ++ "UPDATE SET " ++ joinWith ", " (set.map fun c => q c ++ " = EXCLUDED." ++ q c)

/-- The clause on rows that are already there, where the verb does not say it. -/
def conflictClause (i : Insert) (columns : List String) : Except Error String :=
  match i.conflict, i.query.mapper.dialect.conflictSyntax with
  | some .ignore, .onConflict => .ok " ON CONFLICT DO NOTHING"
  | some .replace, .onConflict => i.upsertClause columns [] []
  | some (.update target set), _ => i.upsertClause columns target set
  | _, _ => .ok ""

/-- The columns and the placeholders of all rows. -/
def valuesSql (i : Insert) (columns : List String) : Except Error String :=
  if columns.isEmpty then
    if 1 < i.rows.length then .error (.invalidQuery (.emptyRows i.query.model))
    else if i.query.mapper.dialect.supportsDefaultValues then .ok " DEFAULT VALUES"
    else .ok " () VALUES ()"
  else
    let row := Sql.parenthesized (joinWith ", " (Placeholder.listed columns.length))
    .ok (" (" ++ i.query.mapper.quoteAll columns ++ ") VALUES "
      ++ joinWith ", " (List.replicate i.rows.length row))

/-- The values of all rows, each in the order of these fields. -/
def cells (i : Insert) (fields : List String) : List Value :=
  i.rows.flatMap fun row => fields.map row.get

def sql (i : Insert) : Except Error Sql := do
  let m := i.query.mapper
  let model ← m.registry.model i.query.model
  let some first := i.rows.head? | throw .noInsertData
  let fields := first.fieldNames
  if let some index := oddRow? fields i.rows then
    throw (.invalidQuery (.rowFields index i.query.model))
  let columns ← m.registry.fieldsToColumns i.query.model fields
  let values ← i.valuesSql columns
  let conflict ← i.conflictClause columns
  let returning ← m.returning i.query.model i.returning
  let text := i.verb ++ " " ++ m.dialect.quote model.table ++ values ++ conflict ++ returning
  return ⟨m.dialect.finalize text, i.cells fields⟩

def exec (i : Insert) : Exchange Effect :=
  Exchange.during ("insert " ++ i.query.model) do Exchange.effect (← i.sql)

/-- The inserted record. When the database returns no row, the statement is carried out once more
to bring its error to light. -/
def execAndReturn (i : Insert) : Exchange Record :=
  Exchange.during ("insert_returning " ++ i.query.model) do
    if i.returning.isEmpty then throw .noReturningFields
    let sql ← i.sql
    match ← Exchange.firstRow sql with
    | some (columns, values) => i.query.mapper.registry.columnsToRecord i.query.model columns values
    | none =>
      let _ ← Exchange.effect sql
      throw (.doesNotExist ("insert into " ++ i.query.model ++ " returned no row"))

end Insert
end RelMap
