import RelMap.Query.Aggregate
import RelMap.Query.Delete
import RelMap.Query.Insert
import RelMap.Query.Select
import RelMap.Query.Update

/-! The statements that can be built on a model. -/
namespace RelMap

inductive Statement where
  | select (s : Select)
  | count (s : Select)
  | insert (i : Insert)
  | update (u : Update)
  | delete (d : Delete)
  | aggregate (a : Aggregate)

def Statement.sql : Statement → Except Error Sql
  | .select s => s.sql
  | .count s => s.countSql
  | .insert i => i.sql
  | .update u => u.sql
  | .delete d => d.sql
  | .aggregate a => a.sql

end RelMap
