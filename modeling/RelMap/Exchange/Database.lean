import RelMap.Exchange.Script

/-!
Databases of any kind, and exchanges carried out with them. Nothing is assumed of how a database
answers and how its answers change it.
-/
namespace RelMap

/-- A database with states `σ`: an answer to each kind of call, and the state after it. -/
structure Database (σ : Type) where
  rows : Sql → σ → Except Error RowSet × σ
  /-- The error may be one of the statement or of its first row. -/
  firstRow : Sql → σ → Except Error (Option (List String × List Value)) × σ
  effect : Sql → σ → Except Error Effect × σ

/-- What has come of an exchange: its outcome, the calls in the order in which they were sent, and
the state that they left the database in. -/
structure Exchange.Account (σ α : Type) where
  outcome : Except Error α
  calls : List Call
  state : σ

variable {σ α : Type}

/-- The account with a call in front. -/
def Exchange.Account.after (call : Call) (account : Exchange.Account σ α) :
    Exchange.Account σ α :=
  { account with calls := call :: account.calls }

/-- Carries out an exchange with a database. -/
def Exchange.runOn (x : Exchange α) (db : Database σ) (s : σ) : Exchange.Account σ α :=
  match x with
  | .done outcome => ⟨outcome, [], s⟩
  | .query sql next =>
    let (answer, s) := db.rows sql s
    .after ⟨true, sql⟩ ((next answer).runOn db s)
  | .first sql next =>
    let (answer, s) := db.firstRow sql s
    .after ⟨true, sql⟩ ((next answer).runOn db s)
  | .execute sql next =>
    let (answer, s) := db.effect sql s
    .after ⟨false, sql⟩ ((next answer).runOn db s)

/-- A script as a database. -/
def Script.database : Database Script where
  rows sql s := s.answerRows sql
  firstRow sql s :=
    let (answer, s) := s.answerRows sql
    (answer.bind RowSet.first, s)
  effect sql s := s.answerEffect sql

end RelMap
