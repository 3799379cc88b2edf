import RelMap.Proofs.Dialect.Finished
import RelMap.Proofs.Query.Write
import RelMap.Proofs.Query.Written

/-! Updates step by step. Whatever is assigned on the way, a field keeps the place of its first
assignment and gets the last one. -/
namespace RelMap

open Placeholder (Closed)

/-- The assignment of a column with a placeholder for its argument. -/
def Assignment.text (column placeholder : String) : Assignment → String
  | .set _ => column ++ " = " ++ placeholder
  | .increment _ => column ++ " = " ++ column ++ " + " ++ placeholder
  | .decrement _ => column ++ " = " ++ column ++ " - " ++ placeholder

theorem Assignment.finished_template (d : Dialect) (column : String) (a : Assignment)
    (count : Nat) :
    (a.template column).finished d count = a.text column (d.placeholder (count + 1)) := by
  cases a <;> simp [template, text, Template.binding, Template.finished_append]

namespace Update

/-- One step in building an update. -/
inductive Call where
  | set (data : Record)
  | setField (field : String) (value : Value)
  | increment (field : String) (amount : Int)
  | decrement (field : String) (amount : Int)
  | filter (condition : Condition)
  | returning (fields : List String)

namespace Call

/-- What a step assigns, in its order. -/
def assigned : Call → List (String × Assignment)
  | .set data => data.fields.map fun (field, value) => (field, .set value)
  | .setField field value => [(field, .set value)]
  | .increment field amount => [(field, .increment amount)]
  | .decrement field amount => [(field, .decrement amount)]
  | _ => []

def conditions : Call → List Condition
  | .filter condition => [condition]
  | _ => []

def returned : Call → List String
  | .returning fields => fields
  | _ => []

end Call

def perform (u : Update) : Call → Update
  | .set data => u.set data
  | .setField field value => u.assign field (.set value)
  | .increment field amount => u.assign field (.increment amount)
  | .decrement field amount => u.assign field (.decrement amount)
  | .filter condition => u.filter condition
  | .returning fields => u.returningFields fields

def run (u : Update) (calls : List Call) : Update := calls.foldl perform u

/-- An update that assigns the fields of a record. -/
def start (q : Query) (data : Record) : Update := ({ query := q } : Update).set data

/-- Everything that is assigned from the start on. -/
def history (data : Record) (calls : List Call) : List (String × Assignment) :=
  (Call.set data).assigned ++ calls.flatMap Call.assigned

theorem set_eq (u : Update) (data : Record) : u.set data =
    { u with assignments := OrderedMap.insertAll u.assignments (Call.set data).assigned } := by
  rw [set, Call.assigned]
  induction data.fields generalizing u with
  | nil => rfl
  | cons field rest ih => exact ih (u.assign field.1 (.set field.2))

/-- What one step adds to an update. -/
theorem perform_eq (u : Update) (call : Call) : u.perform call =
    { query := { u.query with conditions := u.query.conditions ++ call.conditions }
      assignments := OrderedMap.insertAll u.assignments call.assigned
      returning := u.returning ++ call.returned } := by
  cases call <;>
    simp [perform, set_eq, assign, filter, Query.filter, returningFields, Call.conditions,
      Call.returned, Call.assigned, OrderedMap.insertAll]

theorem run_eq (u : Update) (calls : List Call) : u.run calls =
    { query := { u.query with conditions := u.query.conditions ++ calls.flatMap Call.conditions }
      assignments := OrderedMap.insertAll u.assignments (calls.flatMap Call.assigned)
      returning := u.returning ++ calls.flatMap Call.returned } := by
  induction calls generalizing u with
  | nil => simp [run, OrderedMap.insertAll]
  | cons call rest ih =>
    rw [run, List.foldl_cons]
    refine (ih (u.perform call)).trans ?_
    rw [perform_eq]
    simp [OrderedMap.insertAll]

theorem run_start_assignments (q : Query) (data : Record) (calls : List Call) :
    ((start q data).run calls).assignments = OrderedMap.ofList (history data calls) := by
  rw [run_eq, start, set_eq, history, OrderedMap.ofList]
  simp [OrderedMap.insertAll]

variable {u : Update} {m : Model}

/-- The assignments of an update with their values in their places. -/
def setTemplate (u : Update) (m : Model) : Template :=
  .joinWith ", " (u.assignments.map fun (field, assignment) =>
    assignment.template (u.query.mapper.dialect.quote (m.toColumn field)))

/-- The assignments in a finished statement: the placeholder of each has the number of its place. -/
def setSql (d : Dialect) (m : Model) (assignments : List (String × Assignment)) : String :=
  Text.joinWith ", " (assignments.mapIdx fun k (field, assignment) =>
    assignment.text (d.quote (m.toColumn field)) (d.placeholder (k + 1)))

theorem values_assignment (column : String) (a : Assignment) :
    (a.template column).values = [a.value] := by
  cases a <;> exact Template.values_binding _ _

theorem finished_setTemplate : (u.setTemplate m).finished u.query.mapper.dialect 0 =
    setSql u.query.mapper.dialect m u.assignments := by
  have hwidth : ∀ part ∈ u.assignments.map fun (field, assignment) =>
      assignment.template (u.query.mapper.dialect.quote (m.toColumn field)),
      (Template.values part).length = 1 := by
    intro part hpart
    obtain ⟨⟨field, assignment⟩, -, rfl⟩ := List.mem_map.mp hpart
    exact congrArg List.length (values_assignment _ assignment)
  rw [setTemplate, Template.finished_joinWith ", " hwidth, setSql]
  congr 1
  refine List.ext_getElem (by simp) fun k hk hk' => ?_
  simp [Assignment.finished_template]

theorem setTemplate_spells (hm : u.query.mapper.registry.model u.query.model = .ok m) :
    (u.setTemplate m).Spells
      ⟨Text.joinWith ", " ((u.sets m).map Sql.text), (u.sets m).flatMap Sql.args⟩
      (u.assignments.map fun assignment => assignment.2.value) := by
  obtain ⟨t, ht, hspells⟩ := u.template_spells (assignmentSql_eq hm)
  have htemplate : u.template = .ok (u.setTemplate m) := by
    simp only [template, Registry.fieldToColumn_eq hm, ok_bind]
    rw [show (fun x : String × Assignment => (pure (x.2.template
      (u.query.mapper.dialect.quote (m.toColumn x.1))) : Except Error Template)) =
      fun x => .ok (x.2.template (u.query.mapper.dialect.quote (m.toColumn x.1))) from rfl, mapM_ok]
    rfl
  obtain rfl := Except.ok.inj (ht.symm.trans htemplate)
  exact hspells

/-- The text of an update, finished part by part. -/
theorem finalize_eq (hm : u.query.mapper.registry.model u.query.model = .ok m)
    (filter returning : String) :
    u.query.mapper.dialect.finalize ("UPDATE " ++ u.query.mapper.dialect.quote m.table ++ " SET "
        ++ Text.joinWith ", " ((u.sets m).map Sql.text) ++ " WHERE " ++ filter ++ returning) =
      "UPDATE " ++ u.query.mapper.dialect.quote m.table ++ " SET "
        ++ setSql u.query.mapper.dialect m u.assignments ++ " WHERE "
        ++ u.query.mapper.dialect.finalizeFrom u.assignments.length (filter ++ returning) := by
  obtain ⟨hsql, hsound, hvalues⟩ := setTemplate_spells hm
  have htext : (u.setTemplate m).text = Text.joinWith ", " ((u.sets m).map Sql.text) :=
    congrArg Sql.text hsql
  have hlength : (u.setTemplate m).values.length = u.assignments.length := by
    rw [hvalues, List.length_map]
  have hhead : Closed ("UPDATE " ++ u.query.mapper.dialect.quote m.table ++ " SET ") := by
    apply_rules [Closed.append, Dialect.closed_quote] <;> decide
  have hwhere : Closed " WHERE " := by decide
  have hrest := hsound.finalizeFrom_append (d := u.query.mapper.dialect) 0
    (" WHERE " ++ (filter ++ returning))
  rw [finished_setTemplate, hlength, htext, Nat.zero_add,
    Dialect.finalizeFrom_append hwhere] at hrest
  have hwhole := Dialect.finalizeFrom_append (d := u.query.mapper.dialect) hhead 0
    (Text.joinWith ", " ((u.sets m).map Sql.text) ++ (" WHERE " ++ (filter ++ returning)))
  rw [hrest] at hwhole
  simp only [← String.append_assoc] at hwhole ⊢
  exact hwhole

/-- An update that can be built has its assignments in front, each with the number of its place,
and then its conditions and the fields that it returns. -/
theorem sql_eq_ok {sql : Sql} (h : u.sql = .ok sql) : ∃ m filter returning,
    u.query.mapper.registry.model u.query.model = .ok m ∧
    Condition.conjunction (u.query.mapper.bareScope u.query.model) u.query.conditions =
      .ok filter ∧
    u.query.mapper.returning u.query.model u.returning = .ok returning ∧
    sql = ⟨"UPDATE " ++ u.query.mapper.dialect.quote m.table ++ " SET "
        ++ setSql u.query.mapper.dialect m u.assignments ++ " WHERE "
        ++ u.query.mapper.dialect.finalizeFrom u.assignments.length (filter.text ++ returning),
      (u.assignments.map fun assignment => assignment.2.value) ++ filter.args⟩ := by
  unfold Update.sql at h
  dsimp only at h
  split_ifs at h
  · rw [throw_bind] at h
    cases h
  obtain ⟨sets, hsets, h⟩ := bind_eq_ok.mp h
  obtain ⟨filter, hfilter, h⟩ := bind_eq_ok.mp h
  split_ifs at h with hempty
  · rw [throw_bind] at h
    cases h
  obtain ⟨table, htable, h⟩ := bind_eq_ok.mp h
  obtain ⟨m, hm, htable⟩ := bind_eq_ok.mp htable
  obtain rfl := pure_eq_ok.mp htable
  obtain ⟨returning, hreturning, h⟩ := bind_eq_ok.mp h
  obtain rfl := pure_eq_ok.mp h
  obtain rfl := Except.ok.inj ((assignmentSql_eq hm).symm.trans hsets)
  obtain ⟨hsql, -, hvalues⟩ := setTemplate_spells hm
  have hargs : (u.setTemplate m).values = (u.sets m).flatMap Sql.args := congrArg Sql.args hsql
  refine ⟨m, filter, returning, hm, hfilter, hreturning, ?_⟩
  rw [Sql.clause_where (by simpa using hempty), ← String.append_assoc, finalize_eq hm, ← hargs,
    hvalues]

/-- However an update has been built, it assigns every field once, in the order of the first
assignments, with the last one of each; the arguments are the operands in this order and then those
of the conditions. -/
theorem sql_lastAssigned (q : Query) (data : Record) (calls : List Call) {sql : Sql}
    (h : ((start q data).run calls).sql = .ok sql) : ∃ m final filter returning,
      q.mapper.registry.model q.model = .ok m ∧
      OrderedMap.LastWins (history data calls) final ∧
      Condition.conjunction (q.mapper.bareScope q.model)
        (q.conditions ++ calls.flatMap Call.conditions) = .ok filter ∧
      q.mapper.returning q.model (calls.flatMap Call.returned) = .ok returning ∧
      sql.text = "UPDATE " ++ q.mapper.dialect.quote m.table ++ " SET "
        ++ setSql q.mapper.dialect m final ++ " WHERE "
        ++ q.mapper.dialect.finalizeFrom final.length (filter.text ++ returning) ∧
      sql.args = (final.map fun assignment => assignment.2.value) ++ filter.args := by
  obtain ⟨m, filter, returning, hm, hfilter, hreturning, rfl⟩ := sql_eq_ok h
  rw [run_start_assignments]
  simp only [run_eq, start, set_eq] at hm hfilter hreturning ⊢
  exact ⟨m, _, filter, returning, hm, OrderedMap.ofList_lastWins _, hfilter, hreturning, rfl, rfl⟩

/-- A post whose author and number are assigned twice. -/
def movedPost : Update :=
  (start (Query.ofModel { registry := .blog, dialect := .postgresql } "Post")
    { fields := [("author", .int 7)] }).run
    [.increment "id" 5, .setField "author" (.int 9),
      .filter (FieldRef.satisfies ⟨"id", none⟩ (.eq (.int 3))), .decrement "id" 2]

theorem sql_lastAssigned_movedPost : ∃ (sql : Sql) (m : Model)
    (final : List (String × Assignment)) (filter : Sql) (returning : String),
    movedPost.sql = .ok sql ∧
    sql.text =
      "UPDATE \"posts\" SET \"user_id\" = $1, \"id\" = \"id\" - $2 WHERE \"id\" = $3" ∧
    Registry.blog.model "Post" = .ok m ∧
    final.map Prod.fst = ["author", "id"] ∧
    sql.text = "UPDATE " ++ Dialect.postgresql.quote m.table ++ " SET " ++ setSql .postgresql m final
      ++ " WHERE " ++ Dialect.postgresql.finalizeFrom final.length (filter.text ++ returning) ∧
    sql.args = (final.map fun assignment => assignment.2.value) ++ filter.args := by
  have htext : (movedPost.sql.map Sql.text).toOption = some
      "UPDATE \"posts\" SET \"user_id\" = $1, \"id\" = \"id\" - $2 WHERE \"id\" = $3" := by
    decide +kernel
  obtain ⟨sql, hsql, htext⟩ := exists_ok_of_toOption htext
  obtain ⟨m, final, filter, returning, hm, hfinal, -, -, hparts, hargs⟩ :=
    sql_lastAssigned _ _ _ hsql
  exact ⟨sql, m, final, filter, returning, hsql, htext, hm,
    hfinal.keys_eq.trans (by decide), hparts, hargs⟩

end Update
end RelMap
