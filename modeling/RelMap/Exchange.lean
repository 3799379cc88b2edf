import RelMap.Row
import RelMap.Sql

/-!
Exchanges with a database: what a query asks, and how it goes on with each answer. An exchange is
a plain value, so that what is sent can be told without any database.
-/
namespace RelMap

/-- What a statement that returns no rows has done. -/
structure Effect where
  lastInsertId : Option Int := none
  rowsAffected : Nat := 0

inductive Exchange (α : Type) where
  | done (outcome : Except Error α)
  /-- Sends a statement that returns rows. -/
  | query (sql : Sql) (next : Except Error RowSet → Exchange α)
  /-- Sends a statement that returns rows and takes the first of them, with the columns. -/
  | first (sql : Sql) (next : Except Error (Option (List String × List Value)) → Exchange α)
  /-- Sends a statement that returns its effect. -/
  | execute (sql : Sql) (next : Except Error Effect → Exchange α)

namespace Exchange

variable {α β : Type}

/-- Goes on after an exchange, unless it ended in an error. -/
def bind (x : Exchange α) (f : α → Exchange β) : Exchange β :=
  match x with
  | .done (.ok a) => f a
  | .done (.error e) => .done (.error e)
  | .query sql next => .query sql fun answer => (next answer).bind f
  | .first sql next => .first sql fun answer => (next answer).bind f
  | .execute sql next => .execute sql fun answer => (next answer).bind f

instance : Monad Exchange where
  pure a := .done (.ok a)
  bind := bind

instance : MonadLift (Except Error) Exchange := ⟨.done⟩

/-- Goes on after an exchange that ended in an error. -/
def recover (x : Exchange α) (f : Error → Exchange α) : Exchange α :=
  match x with
  | .done (.ok a) => .done (.ok a)
  | .done (.error e) => f e
  | .query sql next => .query sql fun answer => (next answer).recover f
  | .first sql next => .first sql fun answer => (next answer).recover f
  | .execute sql next => .execute sql fun answer => (next answer).recover f

instance : MonadExcept Error Exchange where
  throw e := .done (.error e)
  tryCatch := recover

/-- The rows that a statement returns. -/
def rows (sql : Sql) : Exchange RowSet := .query sql .done

/-- The columns and values of the first row that a statement returns, if it returns any. -/
def firstRow (sql : Sql) : Exchange (Option (List String × List Value)) := .first sql .done

/-- The effect of a statement. -/
def effect (sql : Sql) : Exchange Effect := .execute sql .done

/-- The only row that a statement returns. -/
def onlyRow (sql : Sql) : Exchange Row := do (← rows sql).single sql.text

/-- Names the operation in every error of an exchange. -/
def during (operation : String) (x : Exchange α) : Exchange α :=
  match x with
  | .done (.ok a) => .done (.ok a)
  | .done (.error e) => .done (.error (.during operation e))
  | .query sql next => .query sql fun answer => (next answer).during operation
  | .first sql next => .first sql fun answer => (next answer).during operation
  | .execute sql next => .execute sql fun answer => (next answer).during operation

end Exchange
end RelMap
