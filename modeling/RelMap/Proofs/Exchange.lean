import RelMap.Exchange.Database

/-! What comes of exchanges with databases of any kind: step by step, of exchanges that go on after
one another, and of those with a scripted database. -/
namespace RelMap.Exchange

variable {σ α β : Type}

namespace Account

/-- What comes of going on after an exchange, unless it ended in an error. -/
def andThen (account : Account σ α) (next : α → σ → Account σ β) : Account σ β :=
  match account.outcome with
  | .ok a =>
    let rest := next a account.state
    { rest with calls := account.calls ++ rest.calls }
  | .error e => { account with outcome := .error e }

/-- The account of an exchange during an operation. -/
def during (operation : String) (account : Account σ α) : Account σ α :=
  { account with outcome := account.outcome.mapError (.during operation) }

theorem andThen_after (call : Call) (account : Account σ α) (next : α → σ → Account σ β) :
    (account.after call).andThen next = (account.andThen next).after call := by
  obtain ⟨outcome, calls, s⟩ := account
  cases outcome <;> rfl

@[simp]
theorem andThen_ok (a : α) (calls : List Call) (s : σ) (next : α → σ → Account σ β) :
    andThen ⟨.ok a, calls, s⟩ next =
      ⟨(next a s).outcome, calls ++ (next a s).calls, (next a s).state⟩ := rfl

end Account

variable (db : Database σ) (s : σ)

theorem runOn_bind (x : Exchange α) (f : α → Exchange β) :
    (x >>= f).runOn db s = (x.runOn db s).andThen fun a s => (f a).runOn db s := by
  change (x.bind f).runOn db s = _
  induction x generalizing s with
  | done outcome => cases outcome <;> rfl
  | query sql next ih => exact (congrArg _ (ih _ _)).trans (Account.andThen_after _ _ _).symm
  | first sql next ih => exact (congrArg _ (ih _ _)).trans (Account.andThen_after _ _ _).symm
  | execute sql next ih => exact (congrArg _ (ih _ _)).trans (Account.andThen_after _ _ _).symm

theorem runOn_during (operation : String) (x : Exchange α) :
    (x.during operation).runOn db s = (x.runOn db s).during operation := by
  induction x generalizing s with
  | done outcome => cases outcome <;> rfl
  | query sql next ih => exact congrArg _ (ih _ _)
  | first sql next ih => exact congrArg _ (ih _ _)
  | execute sql next ih => exact congrArg _ (ih _ _)

theorem runOn_liftM (x : Except Error α) : (liftM x : Exchange α).runOn db s = ⟨x, [], s⟩ := rfl

theorem runOn_firstRow (sql : Sql) : (firstRow sql).runOn db s =
    ⟨(db.firstRow sql s).1, [⟨true, sql⟩], (db.firstRow sql s).2⟩ := rfl

theorem runOn_effect (sql : Sql) : (effect sql).runOn db s =
    ⟨(db.effect sql s).1, [⟨false, sql⟩], (db.effect sql s).2⟩ := rfl

/-- With a scripted database an exchange ends as it does with the script. -/
theorem run_eq_runOn (x : Exchange α) (s : Script) :
    x.run s = ((x.runOn Script.database s).outcome, (x.runOn Script.database s).state) := by
  induction x generalizing s with
  | done outcome => rfl
  | query sql next ih => exact ih _ _
  | first sql next ih => exact ih _ _
  | execute sql next ih => exact ih _ _

/-- The log of a script is what was sent to it, in this order. -/
theorem log_runOn (x : Exchange α) (s : Script) : (x.runOn Script.database s).state.log =
    s.log ++ (x.runOn Script.database s).calls := by
  induction x generalizing s with
  | done outcome => exact (List.append_nil _).symm
  | query sql next ih => exact (ih _ _).trans (List.append_assoc _ _ _)
  | first sql next ih => exact (ih _ _).trans (List.append_assoc _ _ _)
  | execute sql next ih => exact (ih _ _).trans (List.append_assoc _ _ _)

end RelMap.Exchange
