import RelMap.Proofs.Exchange
import RelMap.Proofs.Query.Insert

/-! Inserts that return fields, with a database of any kind. The statement is sent once more when no
row has come back, and each order of answers has an outcome of its own. -/
namespace RelMap

/-- The outcome is that something does not exist, whatever operations this arose during. -/
def Missing {α : Type} (outcome : Except Error α) : Prop :=
  ∃ e text, outcome = .error e ∧ e.root = .doesNotExist text

@[simp]
theorem missing_error {α : Type} {e : Error} :
    Missing (.error e : Except Error α) ↔ ∃ text, e.root = .doesNotExist text := by
  simp [Missing]

@[simp]
theorem not_missing_ok {α : Type} (a : α) : ¬Missing (.ok a : Except Error α) := by
  simp [Missing]

/-- The error of a statement that could not be built. -/
def Error.Unbuilt (e : Error) : Prop := e.isResolution = true ∨ e.isConstruction = true

theorem Error.Unbuilt.root_ne_doesNotExist {e : Error} (h : e.Unbuilt) (text : String) :
    e.root ≠ .doesNotExist text := by
  intro hroot
  simp [Unbuilt, isResolution, isConstruction, hroot] at h

/-- The answer to a statement that is sent once more, for its effect, after its first row. -/
def Database.effectAgain {σ : Type} (db : Database σ) (sql : Sql) (s : σ) : Except Error Effect :=
  (db.effect sql (db.firstRow sql s).2).1

namespace Insert

theorem sql_failsOnly (i : Insert) : FailsOnly Error.Unbuilt i.sql := by
  cases hknown : i.query.mapper.registry.contains i.query.model with
  | false =>
    have hsql : i.sql = .error (.unknownModel i.query.model) := by
      rw [sql, Registry.model_of_not_contains hknown]
      rfl
    rw [hsql]
    rintro - ⟨⟩
    exact .inl rfl
  | true =>
    obtain ⟨m, hm⟩ := Registry.model_of_contains hknown
    cases hrows : i.rows with
    | nil =>
      have hsql : i.sql = .error .noInsertData := by
        simp only [sql, hm, hrows]
        rfl
      rw [hsql]
      rintro - ⟨⟩
      exact .inr rfl
    | cons first rest =>
      cases hodd : oddRow? first.fieldNames i.rows with
      | some index =>
        rw [sql_of_oddRow hm hrows hodd]
        rintro - ⟨⟩
        exact .inr rfl
      | none =>
        have hvalues : FailsOnly Error.Unbuilt
            (i.valuesSql (first.fieldNames.map m.toColumn)) := by
          unfold valuesSql
          split_ifs
          · rintro - ⟨⟩
            exact .inr rfl
          · exact .ok _
          · exact .ok _
          · exact .ok _
        rw [sql_of_alike hm hrows hodd]
        refine hvalues.bind fun values => FailsOnly.bind ?_ fun conflict =>
          FailsOnly.bind ?_ fun returning => .ok _
        · intro e he
          exact .inr (conflictClause_failsOnly hm _ e he ▸ rfl)
        · intro e he
          exact .inr (Mapper.returning_failsOnly hm i.returning e he ▸ rfl)

/-- The operation in the errors of an insert that returns fields. -/
def returningOperation (i : Insert) : String := "insert_returning " ++ i.query.model

/-- The statement of an insert with fields to return. -/
def Sends (i : Insert) (sql : Sql) : Prop := i.returning ≠ [] ∧ i.sql = .ok sql

section

variable {σ : Type}

/-- What comes of an insert that returns fields, in one way for each order of answers. -/
inductive Answered (i : Insert) (sql : Sql) (db : Database σ) (s : σ) :
    Exchange.Account σ Record → Prop where
  /-- The statement fails, or its first row does. -/
  | refused {e : Error} {s₁ : σ} : db.firstRow sql s = (.error e, s₁) →
      Answered i sql db s ⟨.error (.during i.returningOperation e), [⟨true, sql⟩], s₁⟩
  | returned {columns : List String} {values : List Value} {record : Record} {s₁ : σ} :
      db.firstRow sql s = (.ok (some (columns, values)), s₁) →
      i.query.mapper.registry.columnsToRecord i.query.model columns values = .ok record →
      Answered i sql db s ⟨.ok record, [⟨true, sql⟩], s₁⟩
  /-- No row has come back, and the second time the statement fails. -/
  | explained {e : Error} {s₁ s₂ : σ} : db.firstRow sql s = (.ok none, s₁) →
      db.effect sql s₁ = (.error e, s₂) →
      Answered i sql db s
        ⟨.error (.during i.returningOperation e), [⟨true, sql⟩, ⟨false, sql⟩], s₂⟩
  /-- No row has come back, and the second time the statement succeeds. -/
  | unexplained {effect : Effect} {s₁ s₂ : σ} : db.firstRow sql s = (.ok none, s₁) →
      db.effect sql s₁ = (.ok effect, s₂) →
      Answered i sql db s ⟨.error (.during i.returningOperation
        (.doesNotExist ("insert into " ++ i.query.model ++ " returned no row"))),
        [⟨true, sql⟩, ⟨false, sql⟩], s₂⟩

variable {i : Insert} {sql : Sql} (db : Database σ) (s : σ)

theorem model_of_sql (h : i.sql = .ok sql) :
    ∃ m, i.query.mapper.registry.model i.query.model = .ok m := by
  obtain ⟨m, hm, -⟩ := bind_eq_ok.mp h
  exact ⟨m, hm⟩

open Exchange in
theorem execAndReturn_answered (h : i.Sends sql) :
    i.Answered sql db s (i.execAndReturn.runOn db s) := by
  obtain ⟨hne, hsql⟩ := h
  -- The model of a statement is known, so that the columns of the answer have their fields.
  obtain ⟨m, hm⟩ := model_of_sql hsql
  simp only [execAndReturn, hne, hsql, List.isEmpty_iff, if_false, runOn_during, runOn_bind,
    runOn_liftM, runOn_firstRow, Account.andThen_ok, List.nil_append]
  cases hfirst : db.firstRow sql s with
  | mk answer s₁ =>
    cases answer with
    | error e => exact .refused hfirst
    | ok row? =>
      cases row? with
      | some row =>
        have hrecord := Registry.columnsToRecord_eq_ofFields hm row.1 row.2
        simp only [Account.andThen_ok, hrecord]
        exact .returned hfirst hrecord
      | none =>
        simp only [Account.andThen_ok, runOn_bind, runOn_effect]
        cases heffect : db.effect sql s₁ with
        | mk answer s₂ =>
          cases answer with
          | error e => exact .explained hfirst heffect
          | ok effect => exact .unexplained hfirst heffect

theorem runOn_execAndReturn_of_unsent (h : i.returning = [] ∨ ∃ e, i.sql = .error e) :
    ∃ e : Error, e.Unbuilt ∧
      i.execAndReturn.runOn db s = ⟨.error (.during i.returningOperation e), [], s⟩ := by
  by_cases hnil : i.returning = []
  · refine ⟨.noReturningFields, .inr rfl, ?_⟩
    simp only [execAndReturn, hnil]
    rfl
  · obtain ⟨e, he⟩ := h.resolve_left hnil
    refine ⟨e, i.sql_failsOnly e he, ?_⟩
    simp only [execAndReturn, hnil, he, List.isEmpty_iff, if_false]
    rfl

namespace Answered

variable {db s} {account : Exchange.Account σ Record} (h : i.Answered sql db s account)
include h

theorem calls_of_ne (hfirst : (db.firstRow sql s).1 ≠ .ok none) :
    account.calls = [⟨true, sql⟩] := by
  cases h with
  | refused _ => rfl
  | returned _ _ => rfl
  | explained hnone _ => exact absurd (congrArg Prod.fst hnone) hfirst
  | unexplained hnone _ => exact absurd (congrArg Prod.fst hnone) hfirst

theorem calls_of_none (hfirst : (db.firstRow sql s).1 = .ok none) :
    account.calls = [⟨true, sql⟩, ⟨false, sql⟩] := by
  cases h with
  | refused herror => simp [herror] at hfirst
  | returned hrow _ => simp [hrow] at hfirst
  | explained _ _ => rfl
  | unexplained _ _ => rfl

theorem exists_ok_iff :
    (∃ record, account.outcome = .ok record) ↔ ∃ row, (db.firstRow sql s).1 = .ok (some row) := by
  cases h with
  | refused herror => simp [herror]
  | returned hrow _ => simp [hrow]
  | explained hnone _ => simp [hnone]
  | unexplained hnone _ => simp [hnone]

theorem outcome_of_row {columns : List String} {values : List Value}
    (hfirst : (db.firstRow sql s).1 = .ok (some (columns, values))) :
    account.outcome = i.query.mapper.registry.columnsToRecord i.query.model columns values := by
  cases h with
  | refused herror => simp [herror] at hfirst
  | returned hrow hrecord =>
    rw [hrow, Except.ok.injEq, Option.some.injEq, Prod.mk.injEq] at hfirst
    rw [← hfirst.1, ← hfirst.2, hrecord]
  | explained hnone _ => simp [hnone] at hfirst
  | unexplained hnone _ => simp [hnone] at hfirst

theorem outcome_of_error {e : Error} (he : (db.firstRow sql s).1 = .error e ∨
      (db.firstRow sql s).1 = .ok none ∧ db.effectAgain sql s = .error e) :
    account.outcome = .error (.during i.returningOperation e) := by
  cases h with
  | refused herror => simpa [herror] using he
  | returned hrow _ => simp [hrow] at he
  | explained hnone herror => simpa [hnone, Database.effectAgain, herror] using he
  | unexplained hnone hok => simp [hnone, Database.effectAgain, hok] at he

theorem outcome_of_effect (hfirst : (db.firstRow sql s).1 = .ok none) {effect : Effect}
    (heffect : db.effectAgain sql s = .ok effect) :
    account.outcome = .error (.during i.returningOperation
      (.doesNotExist ("insert into " ++ i.query.model ++ " returned no row"))) := by
  cases h with
  | refused herror => simp [herror] at hfirst
  | returned hrow _ => simp [hrow] at hfirst
  | explained hnone herror => simp [hnone, Database.effectAgain, herror] at heffect
  | unexplained _ _ => rfl

theorem missing_iff : Missing account.outcome ↔ Missing (db.firstRow sql s).1 ∨
    (db.firstRow sql s).1 = .ok none ∧
      (Missing (db.effectAgain sql s) ∨ ∃ effect, db.effectAgain sql s = .ok effect) := by
  cases h with
  | refused herror => simp [herror, Error.root]
  | returned hrow _ => simp [hrow]
  | explained hnone herror => simp [hnone, Database.effectAgain, herror, Error.root]
  | unexplained hnone hok => simp [hnone, Database.effectAgain, hok, Error.root]

end Answered

/-- How an insert that returns fields goes, whatever the database answers and however this changes
the database. -/
structure SentTwiceForNoRow (i : Insert) (db : Database σ) (s : σ)
    (account : Exchange.Account σ Record) : Prop where
  unsent : i.returning = [] ∨ (∃ e, i.sql = .error e) → account.calls = [] ∧ account.state = s
  once : ∀ sql, i.Sends sql → (db.firstRow sql s).1 ≠ .ok none → account.calls = [⟨true, sql⟩]
  twice : ∀ sql, i.Sends sql → (db.firstRow sql s).1 = .ok none →
    account.calls = [⟨true, sql⟩, ⟨false, sql⟩]
  ok_iff : (∃ record, account.outcome = .ok record) ↔
    ∃ sql row, i.Sends sql ∧ (db.firstRow sql s).1 = .ok (some row)
  /-- Each value of the row stands under the field of its column. -/
  record : ∀ sql columns values, i.Sends sql →
    (db.firstRow sql s).1 = .ok (some (columns, values)) →
    account.outcome = i.query.mapper.registry.columnsToRecord i.query.model columns values
  /-- Errors of the database are passed on as they are. -/
  error : ∀ sql e, i.Sends sql → ((db.firstRow sql s).1 = .error e ∨
      (db.firstRow sql s).1 = .ok none ∧ db.effectAgain sql s = .error e) →
    account.outcome = .error (.during i.returningOperation e)
  /-- A statement that succeeds the second time is reported as missing, whatever its effect. -/
  unexplained : ∀ sql effect, i.Sends sql → (db.firstRow sql s).1 = .ok none →
    db.effectAgain sql s = .ok effect → account.outcome = .error (.during i.returningOperation
      (.doesNotExist ("insert into " ++ i.query.model ++ " returned no row")))
  missing_iff : Missing account.outcome ↔ ∃ sql, i.Sends sql ∧ (Missing (db.firstRow sql s).1 ∨
    (db.firstRow sql s).1 = .ok none ∧
      (Missing (db.effectAgain sql s) ∨ ∃ effect, db.effectAgain sql s = .ok effect))

theorem sends_or_unsent (i : Insert) :
    (∃ sql, i.Sends sql) ∨ i.returning = [] ∨ ∃ e, i.sql = .error e := by
  by_cases hnil : i.returning = []
  · exact .inr (.inl hnil)
  · cases hsql : i.sql with
    | error e => exact .inr (.inr ⟨e, rfl⟩)
    | ok sql => exact .inl ⟨sql, hnil, hsql⟩

/-- The statement is sent once for its first row, and once more exactly if there is none. A record
is returned exactly if there is a row. Nothing is reported as missing but what the database reports
so itself, and every insert without a row whose second time succeeds. -/
theorem execAndReturn_sentTwiceForNoRow (i : Insert) (db : Database σ) (s : σ) :
    i.SentTwiceForNoRow db s (i.execAndReturn.runOn db s) := by
  have hanswered : ∀ sql, i.Sends sql → i.Answered sql db s (i.execAndReturn.runOn db s) :=
    fun sql => execAndReturn_answered db s
  have hunsent := runOn_execAndReturn_of_unsent db s (i := i)
  constructor
  case unsent =>
    intro h
    obtain ⟨e, -, hrun⟩ := hunsent h
    rw [hrun]
    exact ⟨rfl, rfl⟩
  case once => exact fun sql h => (hanswered sql h).calls_of_ne
  case twice => exact fun sql h => (hanswered sql h).calls_of_none
  case ok_iff =>
    constructor
    · intro hok
      rcases i.sends_or_unsent with ⟨sql, hsends⟩ | h
      · obtain ⟨row, hrow⟩ := (hanswered sql hsends).exists_ok_iff.mp hok
        exact ⟨sql, row, hsends, hrow⟩
      · obtain ⟨e, -, hrun⟩ := hunsent h
        simp [hrun] at hok
    · rintro ⟨sql, row, hsends, hrow⟩
      exact (hanswered sql hsends).exists_ok_iff.mpr ⟨row, hrow⟩
  case record => exact fun sql columns values h => (hanswered sql h).outcome_of_row
  case error => exact fun sql e h => (hanswered sql h).outcome_of_error
  case unexplained =>
    exact fun sql effect h hfirst => (hanswered sql h).outcome_of_effect hfirst
  case missing_iff =>
    constructor
    · intro hmissing
      rcases i.sends_or_unsent with ⟨sql, hsends⟩ | h
      · exact ⟨sql, hsends, (hanswered sql hsends).missing_iff.mp hmissing⟩
      · -- Nothing was sent, and what is refused unsent is refused for another reason.
        obtain ⟨e, he, hrun⟩ := hunsent h
        rw [hrun, missing_error] at hmissing
        obtain ⟨text, hroot⟩ := hmissing
        exact absurd hroot (he.root_ne_doesNotExist text)
    · rintro ⟨sql, hsends, hmissing⟩
      exact (hanswered sql hsends).missing_iff.mpr hmissing

end

/-- A post of an author, whose key is to be returned. -/
def newPost : Insert :=
  { query := Query.ofModel { registry := .blog, dialect := .sqlite } "Post"
    rows := [{ fields := [("author", .int 7)] }]
    returning := ["id"] }

/-- No row comes back, and then one row is inserted. -/
def insertedLate : Script := { rows := [.ok ⟨["id"], []⟩], effects := [.ok ⟨some 7, 1⟩] }

/-- The database itself reports that something does not exist. -/
def reportedGone : Script := { rows := [.error (.doesNotExist "gone")] }

/-- A post is reported as missing though its insert took effect, and so is one whose statement was
sent only once. -/
theorem execAndReturn_missing_newPost : ∃ sql, newPost.Sends sql ∧
    Script.database.effectAgain sql insertedLate = .ok ⟨some 7, 1⟩ ∧
    Missing (newPost.execAndReturn.runOn Script.database insertedLate).outcome ∧
    (newPost.execAndReturn.runOn Script.database reportedGone).calls = [⟨true, sql⟩] ∧
    Missing (newPost.execAndReturn.runOn Script.database reportedGone).outcome := by
  have hargs : (newPost.sql.map Sql.args).toOption = some [.int 7] := rfl
  obtain ⟨sql, hsql, -⟩ := exists_ok_of_toOption hargs
  have hsends : newPost.Sends sql := ⟨by decide, hsql⟩
  have hlate := execAndReturn_answered Script.database insertedLate hsends
  have hgone := execAndReturn_answered Script.database reportedGone hsends
  have heffect : Script.database.effectAgain sql insertedLate = .ok ⟨some 7, 1⟩ := rfl
  have hrefused : (Script.database.firstRow sql reportedGone).1 = .error (.doesNotExist "gone") :=
    rfl
  refine ⟨sql, hsends, heffect, ?_, ?_, ?_⟩
  · exact hlate.missing_iff.mpr (.inr ⟨rfl, .inr ⟨_, heffect⟩⟩)
  · apply hgone.calls_of_ne
    simp [hrefused]
  · exact hgone.missing_iff.mpr (.inl ⟨_, _, hrefused, rfl⟩)

end Insert
end RelMap
