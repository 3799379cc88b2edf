import RelMap.Exchange
import RelMap.Hydration
import RelMap.Query.Basic

/-!
Delete statements. A statement without a condition is refused.
-/
namespace RelMap

structure Delete where
  query : Query
  returning : List String := []

namespace Delete

def filter (d : Delete) (condition : Condition) : Delete :=
  { d with query := d.query.filter condition }

def returningFields (d : Delete) (fields : List String) : Delete :=
  { d with returning := d.returning ++ fields }

def sql (d : Delete) : Except Error Sql := do
  let m := d.query.mapper
  let filter ← Condition.conjunction (m.bareScope d.query.model) d.query.conditions
  if filter.text.isEmpty then throw (.unboundedDelete d.query.model)
  let table := m.dialect.quote (← m.registry.modelToTable d.query.model)
  let returning ← m.returning d.query.model d.returning
  let text := "DELETE FROM " ++ table ++ Sql.clause "WHERE" filter.text ++ returning
  return ⟨m.dialect.finalize text, filter.args⟩

def exec (d : Delete) : Exchange Effect :=
  Exchange.during ("delete " ++ d.query.model) do Exchange.effect (← d.sql)

/-- The deleted records. -/
def execAndReturn (d : Delete) : Exchange (List Record) :=
  Exchange.during ("delete_returning " ++ d.query.model) do
    if d.returning.isEmpty then throw .noReturningFields
    let rows ← Exchange.rows (← d.sql)
    hydratePlain d.query.mapper.registry d.query.model rows

end Delete
end RelMap
