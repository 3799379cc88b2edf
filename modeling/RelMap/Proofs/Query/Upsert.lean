import RelMap.Proofs.Query.Insert

/-! Upserts: an insert that overwrites columns of the rows that are already there. It is the insert
itself with one clause behind it, and the clause names no other columns than those that are to be
overwritten, each with the value that was to be inserted into it. -/
namespace RelMap

open Placeholder (Closed)

namespace Insert

/-- The insert itself: nothing is said about rows that are already there, and nothing returned. -/
def plain (i : Insert) : Insert := { i with conflict := none, returning := [] }

/-- The columns that are inserted, in the order of the fields of the first row. -/
def columns (i : Insert) (m : Model) : List String :=
  i.rows.head?.elim [] fun first => first.fieldNames.map m.toColumn

/-- A statement with a clause behind it, and the returned fields behind both. -/
def followedBy (i : Insert) (base : Sql) (clause : String) : Except Error Sql :=
  return ⟨base.text ++ clause ++ (← i.query.mapper.returning i.query.model i.returning), base.args⟩

section

variable {i : Insert} {m : Model} {first : Record} {rest : List Record}

/-- What stands behind the rows does not change how they are finished. -/
theorem finalize_append (hrows : i.rows = first :: rest) {columns : List String}
    (hcolumns : first.fieldNames.length = columns.length) {values : String}
    (hvalues : i.valuesSql columns = .ok values) {head behind : String} (hhead : Closed head)
    (hbehind : Closed behind) :
    i.query.mapper.dialect.finalize (head ++ values ++ behind) =
      i.query.mapper.dialect.finalize (head ++ values) ++ behind := by
  obtain ⟨hsound, -, lead, hlead, rfl⟩ := valuesSql_eq_ok hrows hcolumns hvalues
  have hbetween : ∀ rest : String, Closed rest →
      i.query.mapper.dialect.finalize (head ++ lead ++ i.template.text ++ rest) =
        head ++ lead ++ i.template.finished i.query.mapper.dialect 0 ++ rest :=
    fun _ hrest => Dialect.finalize_between (hhead.append hlead) hsound hrest
  have hnothing := hbetween "" (by decide)
  rw [String.append_empty, String.append_empty] at hnothing
  rw [← String.append_assoc, hbetween behind hbehind, hnothing]

/-- An insert of rows with the same fields is what it writes with the conflict clause behind it. -/
theorem sql_of_valuesSql (hm : i.query.mapper.registry.model i.query.model = .ok m)
    (hrows : i.rows = first :: rest) (hodd : oddRow? first.fieldNames i.rows = none)
    {values : String} (hvalues : i.valuesSql (first.fieldNames.map m.toColumn) = .ok values) :
    i.sql = i.conflictClause (first.fieldNames.map m.toColumn) >>= i.followedBy
      ⟨i.query.mapper.dialect.finalize
        (i.verb ++ " " ++ i.query.mapper.dialect.quote m.table ++ values),
        i.cells first.fieldNames⟩ := by
  have hhead : Closed (i.verb ++ " " ++ i.query.mapper.dialect.quote m.table) :=
    (i.closed_verb.append (by decide)).append (Dialect.closed_quote _ _)
  rw [sql_of_alike hm hrows hodd]
  dsimp only
  rw [hvalues, ok_bind]
  cases hconflict : i.conflictClause (first.fieldNames.map m.toColumn) with
  | error e => rfl
  | ok clause =>
    unfold followedBy
    cases hreturning : i.query.mapper.returning i.query.model i.returning with
    | error e => rfl
    | ok returning =>
      have hbehind : Closed (clause ++ returning) :=
        (closed_conflictClause hconflict).append (Mapper.closed_returning hreturning)
      have htext := finalize_append hrows (List.length_map _).symm hvalues hhead hbehind
      rw [← String.append_assoc, ← String.append_assoc] at htext
      simp only [ok_bind, htext]

theorem plain_followedBy (columns : List String) (base : Sql) :
    i.plain.conflictClause columns >>= i.plain.followedBy base = .ok base := by
  change (pure ⟨base.text ++ "" ++ "", base.args⟩ : Except Error Sql) = .ok base
  rw [String.append_empty, String.append_empty]
  rfl

/-- An insert that begins like the insert itself is built from it. -/
theorem sql_eq_followedBy (hm : i.query.mapper.registry.model i.query.model = .ok m)
    (hverb : i.verb = i.plain.verb) :
    i.sql = i.plain.sql >>= fun base => i.conflictClause (i.columns m) >>= i.followedBy base := by
  cases hrows : i.rows with
  | nil =>
    have hnone : ∀ j : Insert, j.query = i.query → j.rows = [] → j.sql = .error .noInsertData := by
      intro j hquery hnil
      simp only [sql, hquery, hnil, hm]
      rfl
    rw [hnone i rfl hrows, hnone i.plain rfl hrows]
    rfl
  | cons first rest =>
    have hplain : i.plain.rows = first :: rest := hrows
    cases hodd : oddRow? first.fieldNames i.rows with
    | some index =>
      rw [sql_of_oddRow hm hrows hodd, sql_of_oddRow (i := i.plain) hm hplain hodd]
      rfl
    | none =>
      have hcolumns : i.columns m = first.fieldNames.map m.toColumn := by
        rw [columns, hrows]
        rfl
      rw [hcolumns]
      cases hvalues : i.valuesSql (first.fieldNames.map m.toColumn) with
      | error e =>
        rw [sql_of_alike hm hrows hodd, sql_of_alike (i := i.plain) hm hplain hodd]
        dsimp only
        rw [hvalues, show i.plain.valuesSql = i.valuesSql from rfl, hvalues]
        rfl
      | ok values =>
        rw [sql_of_valuesSql hm hrows hodd hvalues, hverb,
          sql_of_valuesSql (i := i.plain) hm hplain hodd hvalues, plain_followedBy]
        rfl

end

/-- An upsert is the insert itself with one clause behind it, which overwrites these columns. It is
refused where the insert itself is, and where the dialect has no words for overwriting nothing. -/
structure Upserts (i : Insert) (target overwritten : List String) : Prop where
  refused : ∀ e, i.plain.sql = .error e → i.sql = .error e
  built : ∀ base, i.plain.sql = .ok base → i.sql =
    match i.query.mapper.upsertSql? target overwritten with
    | some clause => i.followedBy base clause
    | none => .error (.invalidQuery (.emptyUpsert i.query.model))

variable {i : Insert} {m : Model}

theorem upserts (hm : i.query.mapper.registry.model i.query.model = .ok m)
    (hverb : i.verb = i.plain.verb) {target set : List String}
    (hclause : i.conflictClause (i.columns m) = i.upsertClause (i.columns m) target set) :
    i.Upserts (m.targetColumns target) (m.overwrittenColumns (i.columns m) target set) := by
  have hsql := sql_eq_followedBy hm hverb
  rw [hclause, upsertClause_eq hm] at hsql
  constructor
  · intro e he
    rw [hsql, he]
    rfl
  · intro base hbase
    rw [hsql, hbase, ok_bind]
    cases i.query.mapper.upsertSql? (m.targetColumns target)
      (m.overwrittenColumns (i.columns m) target set) <;> rfl

theorem upserts_of_update (hm : i.query.mapper.registry.model i.query.model = .ok m)
    {target set : List String} (hconflict : i.conflict = some (.update target set)) :
    i.Upserts (m.targetColumns target) (m.overwrittenColumns (i.columns m) target set) := by
  refine upserts hm ?_ ?_
  · rw [verb, verb, hconflict]
    rfl
  · rw [conflictClause, hconflict]

/-- Every upsert overwrites exactly the columns that it is to overwrite, each with the value that
was to be inserted into it. In PostgreSQL a replacement is the upsert that overwrites all inserted
columns outside the primary key. -/
theorem sql_upserts (i : Insert) {m : Model}
    (hm : i.query.mapper.registry.model i.query.model = .ok m) :
    (∀ target set, i.conflict = some (.update target set) →
      i.Upserts (m.targetColumns target) (m.overwrittenColumns (i.columns m) target set)) ∧
    (i.conflict = some .replace → i.query.mapper.dialect = .postgresql →
      i.Upserts (m.targetColumns []) (m.overwrittenColumns (i.columns m) [] []) ∧
      i.sql = (i.onConflict (.update [] [])).sql) := by
  refine ⟨fun target set => upserts_of_update hm, fun hconflict hdialect => ?_⟩
  have hverb : i.verb = i.plain.verb := by
    rw [verb, verb, hconflict, hdialect]
    rfl
  have hclause : ∀ columns, i.conflictClause columns = i.upsertClause columns [] [] := by
    intro columns
    rw [conflictClause, hconflict, hdialect]
    rfl
  refine ⟨upserts hm hverb (hclause _), ?_⟩
  rw [sql_eq_followedBy hm hverb, hclause,
    sql_eq_followedBy (i := i.onConflict (.update [] [])) hm rfl]
  rfl

/-- Lines of orders, with a key of two fields. -/
def orderLines : Registry := .ofModels [
  { name := "Line"
    table := "lines"
    fields := [{ name := "order", column := some "order_id" }, { name := "place" },
      { name := "amount" }]
    compositeKey := ["order", "place"] }]

/-- The amount of a line, which may be there already. -/
def lineAmount : Insert :=
  { query := Query.ofModel { registry := orderLines, dialect := .postgresql } "Line"
    rows := [{ fields := [("amount", .int 5), ("place", .int 1), ("order", .int 7)] }]
    conflict := some (.update [] [])
    returning := ["amount"] }

theorem sql_upserts_lineAmount : ∃ m, orderLines.model "Line" = .ok m ∧
    lineAmount.conflict = some (.update [] []) ∧
    m.targetColumns [] = ["order_id", "place"] ∧
    lineAmount.Upserts ["order_id", "place"] ["amount"] ∧
    (lineAmount.sql.map Sql.text).toOption =
      some ("INSERT INTO \"lines\" (\"amount\", \"place\", \"order_id\") VALUES ($1, $2, $3) " ++
        "ON CONFLICT (\"order_id\", \"place\") DO UPDATE SET \"amount\" = EXCLUDED.\"amount\" " ++
        "RETURNING \"amount\"") := by
  obtain ⟨m, hm, htarget, hover⟩ : ∃ m, orderLines.model "Line" = .ok m ∧
      m.targetColumns [] = ["order_id", "place"] ∧
      m.overwrittenColumns (lineAmount.columns m) [] [] = ["amount"] := ⟨_, rfl, rfl, rfl⟩
  have hupserts := (sql_upserts lineAmount hm).1 [] [] rfl
  rw [htarget, hover] at hupserts
  exact ⟨m, hm, rfl, htarget, hupserts, by decide +kernel⟩

end Insert
end RelMap
