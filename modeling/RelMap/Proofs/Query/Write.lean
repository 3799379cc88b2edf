import RelMap.Proofs.Condition.Basic
import RelMap.Proofs.Join.Run
import RelMap.Query.Delete
import RelMap.Query.Update

/-! Statements that change the rows of a model. None of them can be built for all rows of a
table: what the conditions make is never empty, and without it nothing is sent. -/
namespace RelMap

theorem Sql.clause_where {body : String} (hbody : body ≠ "") :
    clause "WHERE" body = " WHERE " ++ body := by
  rw [clause, if_neg (by simpa using hbody)]
  rfl

/-- The assignments of an update on a declared model. -/
def Update.sets (u : Update) (m : Model) : List Sql :=
  u.assignments.map fun (field, assignment) =>
    assignment.sql (u.query.mapper.dialect.quote (m.toColumn field))

theorem Update.assignmentSql_eq {u : Update} {m : Model}
    (hm : u.query.mapper.registry.model u.query.model = .ok m) :
    u.assignmentSql = .ok (u.sets m) := by
  simp only [assignmentSql, Registry.fieldToColumn_eq hm, ok_bind]
  exact mapM_ok _ _

/-- A statement that changes the rows that satisfy conditions. -/
inductive Write where
  | delete (d : Delete)
  | update (u : Update)

namespace Write

def query : Write → Query
  | .delete d => d.query
  | .update u => u.query

def returning : Write → List String
  | .delete d => d.returning
  | .update u => u.returning

def sql : Write → Except Error Sql
  | .delete d => d.sql
  | .update u => u.sql

def exec : Write → Exchange Effect
  | .delete d => d.exec
  | .update u => u.exec

def execAndReturn : Write → Exchange (List Record)
  | .delete d => d.execAndReturn
  | .update u => u.execAndReturn

/-- The name of the operation in errors. -/
def operation : Write → String
  | .delete _ => "delete"
  | .update _ => "update"

/-- Whether no change is asked for. -/
def isIdle : Write → Bool
  | .delete _ => false
  | .update u => u.assignments.isEmpty

/-- The error of a statement on all rows. -/
def unbounded : Write → Error
  | .delete d => .unboundedDelete d.query.model
  | .update u => .unboundedUpdate u.query.model

/-- The statement on the table of a model up to its conditions. -/
def head (m : Model) : Write → Sql
  | .delete d => ⟨"DELETE FROM " ++ d.query.mapper.dialect.quote m.table, []⟩
  | .update u =>
    let sets := u.assignments.map fun (field, assignment) =>
      assignment.sql (u.query.mapper.dialect.quote (m.toColumn field))
    ⟨"UPDATE " ++ u.query.mapper.dialect.quote m.table ++ " SET "
      ++ Text.joinWith ", " (sets.map Sql.text), sets.flatMap Sql.args⟩

/-- The clause that returns fields of a model. -/
def returningSql (m : Model) (w : Write) : String :=
  if w.returning = [] then ""
  else " RETURNING " ++ w.query.mapper.quoteAll (w.returning.map m.toColumn)

/-- The statement under a filter, unless the dialect cannot return the rows that are asked for. -/
def under (m : Model) (w : Write) (filter : Sql) : Except Error Sql :=
  if w.returning ≠ [] ∧ w.query.mapper.dialect.supportsReturning = false then
    .error (.returningUnsupported w.query.mapper.dialect.name)
  else .ok ⟨w.query.mapper.dialect.finalize
    ((w.head m).text ++ " WHERE " ++ filter.text ++ w.returningSql m),
    (w.head m).args ++ filter.args⟩

/-- A statement that is refused when every condition asks for nothing, and otherwise changes only
the rows that satisfy the others. -/
structure Bounded (w : Write) (m : Model) : Prop where
  refused_iff : w.sql = .error w.unbounded ↔ ∀ c ∈ w.query.conditions, c.isEmpty = true
  bounded : (∃ c ∈ w.query.conditions, c.isEmpty = false) → ∃ filter : Sql, filter.text ≠ "" ∧
    Condition.Conjoins (w.query.mapper.bareScope w.query.model)
      (w.query.conditions.filter fun c => !c.isEmpty) filter ∧
    w.sql = w.under m filter

variable {w : Write} {m : Model}

theorem under_eq (hm : w.query.mapper.registry.model w.query.model = .ok m) (filter : Sql) :
    w.under m filter = (w.query.mapper.returning w.query.model w.returning).map fun returning =>
      ⟨w.query.mapper.dialect.finalize
        ((w.head m).text ++ " WHERE " ++ filter.text ++ returning),
        (w.head m).args ++ filter.args⟩ := by
  unfold under Mapper.returning returningSql
  rw [Registry.fieldsToColumns_eq hm]
  cases w.returning with
  | nil => rfl
  | cons field rest =>
    cases w.query.mapper.dialect.supportsReturning with
    | true => rfl
    | false => rfl

theorem sql_eq {filter : Sql} (hm : w.query.mapper.registry.model w.query.model = .ok m)
    (hfilter : Condition.conjunction (w.query.mapper.bareScope w.query.model) w.query.conditions =
      .ok filter) (hidle : w.isIdle = false) :
    w.sql = if filter.text = "" then .error w.unbounded else w.under m filter := by
  rw [under_eq hm]
  cases w with
  | delete d =>
    simp only [query] at hm hfilter
    simp only [sql, Delete.sql, hfilter, ok_bind, String.isEmpty_iff]
    by_cases htext : filter.text = ""
    · simp only [htext, if_true, throw_bind]
      rfl
    · simp only [htext, if_false, Registry.modelToTable_eq hm, ok_bind, Sql.clause_where htext,
        ← String.append_assoc]
      rfl
  | update u =>
    simp only [query] at hm hfilter
    have hsets := Update.assignmentSql_eq hm
    simp only [isIdle] at hidle
    simp only [sql, Update.sql, hidle, hsets, hfilter, ok_bind, String.isEmpty_iff]
    by_cases htext : filter.text = ""
    · simp only [htext, if_true, throw_bind]
      rfl
    · simp only [htext, if_false, Registry.modelToTable_eq hm, ok_bind, Sql.clause_where htext,
        ← String.append_assoc]
      rfl

theorem bounded_of_render (hm : w.query.mapper.registry.model w.query.model = .ok m)
    (hrender : ∀ c ∈ w.query.conditions,
      ∃ sql, c.render (w.query.mapper.bareScope w.query.model) = .ok sql)
    (hidle : w.isIdle = false) : w.Bounded m := by
  obtain ⟨filter, hfilter, htext, hconjoins⟩ := Condition.conjunction_eq_ok hrender
  have hsql := sql_eq hm hfilter hidle
  have hunder : w.under m filter ≠ .error w.unbounded := by
    unfold under
    cases w <;> split_ifs <;> simp [unbounded]
  constructor
  · rw [hsql, ← htext]
    by_cases hempty : filter.text = "" <;> simp [hempty, hunder]
  · rintro ⟨c, hc, hasks⟩
    have hne : filter.text ≠ "" := fun hempty => by simp [htext.mp hempty c hc] at hasks
    refine ⟨filter, hne, hconjoins hne, ?_⟩
    rw [hsql, if_neg hne]

/-- A statement that cannot be built is not sent, and neither is one that should return rows but
names no fields. -/
structure SendsNothing (w : Write) : Prop where
  exec : ∀ e, w.sql = .error e →
    w.exec = .done (.error (.during (w.operation ++ " " ++ w.query.model) e))
  execAndReturn : ∀ e, w.returning ≠ [] → w.sql = .error e →
    w.execAndReturn = .done (.error (.during (w.operation ++ "_returning " ++ w.query.model) e))
  unnamed : w.returning = [] → w.execAndReturn =
    .done (.error (.during (w.operation ++ "_returning " ++ w.query.model) .noReturningFields))

theorem sendsNothing (w : Write) : w.SendsNothing := by
  cases w with
  | delete d =>
    refine ⟨fun e he => ?_, fun e hne he => ?_, fun hnil => ?_⟩
    · simp only [sql] at he
      simp only [exec, Delete.exec, he]
      rfl
    · simp only [sql] at he
      simp only [returning] at hne
      simp only [execAndReturn, Delete.execAndReturn, he, hne, List.isEmpty_iff, if_false]
      rfl
    · simp only [returning] at hnil
      simp only [execAndReturn, Delete.execAndReturn, hnil]
      rfl
  | update u =>
    refine ⟨fun e he => ?_, fun e hne he => ?_, fun hnil => ?_⟩
    · simp only [sql] at he
      simp only [exec, Update.exec, he]
      rfl
    · simp only [sql] at he
      simp only [returning] at hne
      simp only [execAndReturn, Update.execAndReturn, he, hne, List.isEmpty_iff, if_false]
      rfl
    · simp only [returning] at hnil
      simp only [execAndReturn, Update.execAndReturn, hnil]
      rfl

/-- No statement on all rows can be built from conditions that render, whatever trees they are;
and a statement that cannot be built is never sent. -/
theorem sql_bounded (w : Write) :
    (∀ m, w.query.mapper.registry.model w.query.model = .ok m →
      (∀ c ∈ w.query.conditions,
        ∃ sql, c.render (w.query.mapper.bareScope w.query.model) = .ok sql) →
      if w.isIdle then w.sql = .error .noUpdateData else w.Bounded m) ∧
    w.SendsNothing := by
  refine ⟨fun m hm hrender => ?_, sendsNothing w⟩
  split_ifs with hidle
  · cases w with
    | delete d => simp [isIdle] at hidle
    | update u =>
      simp only [isIdle] at hidle
      simp only [sql, Update.sql, hidle]
      rfl
  · exact bounded_of_render hm hrender (by simpa using hidle)

/-- The posts of an author are deleted; another condition asks for nothing. -/
def postsOfAuthor : Write := .delete
  { query := { Query.ofModel { registry := .blog, dialect := .postgresql } "Post" with
      conditions := [.all [.not (.any [])], FieldRef.satisfies ⟨"author", none⟩ (.eq (.int 7))] }
    returning := ["id"] }

theorem sql_bounded_postsOfAuthor :
    (∃ m, Registry.blog.model "Post" = .ok m ∧ postsOfAuthor.Bounded m) ∧
      (postsOfAuthor.sql.map Sql.text).toOption =
        some "DELETE FROM \"posts\" WHERE \"user_id\" = $1 RETURNING \"id\"" := by
  have hsql : (postsOfAuthor.sql.map Sql.text).toOption =
      some "DELETE FROM \"posts\" WHERE \"user_id\" = $1 RETURNING \"id\"" := by decide +kernel
  obtain ⟨m, hm⟩ : ∃ m, Registry.blog.model "Post" = .ok m := ⟨_, rfl⟩
  refine ⟨⟨m, hm, (sql_bounded postsOfAuthor).1 m hm ?_⟩, hsql⟩
  intro c hc
  simp only [postsOfAuthor, query, List.mem_cons, List.not_mem_nil, or_false] at hc
  rcases hc with rfl | rfl
  · exact ⟨_, rfl⟩
  · exact ⟨_, rfl⟩

end Write
end RelMap
