import RelMap.Proofs.Query.Closed
import RelMap.Proofs.Schema.Model

/-! What an insert does about rows that are already there: which columns of them it overwrites, and
how each dialect says so. -/
namespace RelMap

/-- The columns that tell whether a row is already there: those of the target, of the primary key
where there is none. -/
def Model.targetColumns (m : Model) (target : List String) : List String :=
  if target = [] then m.primaryKeyFields.map Field.columnName else target.map m.toColumn

/-- The columns that are overwritten: those of the `set` fields, where there are none the inserted
columns outside the target. -/
def Model.overwrittenColumns (m : Model) (inserted target set : List String) : List String :=
  if set = [] then inserted.filter fun c => c ∉ m.targetColumns target else set.map m.toColumn

namespace Mapper

variable (m : Mapper)

/-- Each column gets the value that was to be inserted into it. -/
def overwrites (columns : List String) : String :=
  let q := m.dialect.quote
  Text.joinWith ", " (columns.map fun c =>
    match m.dialect with
    | .mysql => q c ++ " = VALUES(" ++ q c ++ ")"
    | _ => q c ++ " = EXCLUDED." ++ q c)

/-- The clause that overwrites columns of a row that is already there. Where nothing is left to
overwrite the row stays as it is; MySQL has no words for that. -/
def upsertSql? (target overwritten : List String) : Option String :=
  match m.dialect, overwritten with
  | .mysql, [] => none
  | .mysql, _ => some (" ON DUPLICATE KEY UPDATE " ++ m.overwrites overwritten)
  | _, [] => some (" ON CONFLICT (" ++ m.quoteAll target ++ ") DO NOTHING")
  | _, _ =>
    some (" ON CONFLICT (" ++ m.quoteAll target ++ ") DO UPDATE SET " ++ m.overwrites overwritten)

theorem returning_failsOnly {m : Mapper} {model : String} {declared : Model}
    (hm : m.registry.model model = .ok declared) (fields : List String) :
    FailsOnly (· = .returningUnsupported m.dialect.name) (m.returning model fields) := by
  unfold returning
  rw [Registry.fieldsToColumns_eq hm]
  split_ifs
  · exact .ok _
  · exact fun e he => (Except.error.inj he).symm
  · exact .ok _

end Mapper

namespace Insert

variable {i : Insert} {m : Model}

theorem targetColumns_eq (hm : i.query.mapper.registry.model i.query.model = .ok m)
    (target : List String) : i.targetColumns target = .ok (m.targetColumns target) := by
  simp only [targetColumns, Model.targetColumns, List.isEmpty_iff, hm, ok_bind,
    Registry.fieldsToColumns_eq hm]
  split_ifs <;> rfl

theorem overwritten_eq (hm : i.query.mapper.registry.model i.query.model = .ok m)
    (columns target set : List String) :
    i.overwritten columns (m.targetColumns target) set =
      .ok (m.overwrittenColumns columns target set) := by
  simp only [overwritten, Model.overwrittenColumns, List.isEmpty_iff,
    Registry.fieldsToColumns_eq hm]
  split_ifs
  · simp
  · rfl

theorem upsertClause_eq (hm : i.query.mapper.registry.model i.query.model = .ok m)
    (columns target set : List String) :
    i.upsertClause columns target set =
      match i.query.mapper.upsertSql? (m.targetColumns target)
        (m.overwrittenColumns columns target set) with
      | some clause => .ok clause
      | none => .error (.invalidQuery (.emptyUpsert i.query.model)) := by
  simp only [upsertClause, targetColumns_eq hm, overwritten_eq hm, ok_bind, List.isEmpty_iff]
  generalize m.overwrittenColumns columns target set = overwritten
  unfold Mapper.upsertSql? Mapper.overwrites
  cases i.query.mapper.dialect <;> cases overwritten <;>
    simp [Dialect.conflictSyntax, String.append_assoc] <;> rfl

theorem conflictClause_failsOnly (hm : i.query.mapper.registry.model i.query.model = .ok m)
    (columns : List String) : FailsOnly (· = .invalidQuery (.emptyUpsert i.query.model))
      (i.conflictClause columns) := by
  have hupsert : ∀ target set, FailsOnly (· = .invalidQuery (.emptyUpsert i.query.model))
      (i.upsertClause columns target set) := by
    intro target set
    rw [upsertClause_eq hm]
    split
    · exact .ok _
    · exact fun e he => (Except.error.inj he).symm
  unfold conflictClause
  split
  · exact .ok _
  · exact hupsert [] []
  · exact hupsert _ _
  · exact .ok _

end Insert
end RelMap
