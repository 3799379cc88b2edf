import RelMap.Exchange

/-!
A database that answers from a script and keeps a log of what it was sent.
-/
namespace RelMap

/-- A statement that was sent, and whether rows were asked for. -/
structure Call where
  wantsRows : Bool
  sql : Sql

structure Script where
  /-- The answers to come for statements that return rows. -/
  rows : List (Except Error RowSet) := []
  /-- The answers to come for statements that return their effect. -/
  effects : List (Except Error Effect) := []
  /-- All calls so far, those that failed too. -/
  log : List Call := []

namespace Script

/-- Answers with the next rows, or with none at the end of the script. -/
def answerRows (s : Script) (sql : Sql) : Except Error RowSet × Script :=
  (s.rows.head?.getD (.ok ⟨[], []⟩),
    { s with rows := s.rows.tail, log := s.log ++ [⟨true, sql⟩] })

/-- Answers with the next effect, or with that of a first insert at the end of the script. -/
def answerEffect (s : Script) (sql : Sql) : Except Error Effect × Script :=
  (s.effects.head?.getD (.ok ⟨some 1, 1⟩),
    { s with effects := s.effects.tail, log := s.log ++ [⟨false, sql⟩] })

end Script

/-- Carries out an exchange with a scripted database. -/
def Exchange.run {α : Type} (x : Exchange α) (s : Script) : Except Error α × Script :=
  match x with
  | .done outcome => (outcome, s)
  | .query sql next =>
    let (answer, s) := s.answerRows sql
    (next answer).run s
  | .first sql next =>
    let (answer, s) := s.answerRows sql
    (next (answer.bind RowSet.first)).run s
  | .execute sql next =>
    let (answer, s) := s.answerEffect sql
    (next answer).run s

end RelMap
