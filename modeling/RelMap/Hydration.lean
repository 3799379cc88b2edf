import RelMap.Hydration.Flat
import RelMap.Hydration.Nested

/-!
Hydration: the records of a result, with the records that its joins bring along.
-/
namespace RelMap

/-- The records of a result without joins. -/
def hydratePlain (registry : Registry) (model : String) (rows : RowSet) :
    Except Error (List Record) :=
  rows.mapRows fun row => registry.columnsToRecord model rows.columns row.values

/-- The records of a result. Includes of one relation each need no nodes. -/
def hydrate [Regex.Engine] (registry : Registry) (model label : String) (joins : List Join)
    (includes : Includes) (rows : RowSet) : Except Error (List Record) :=
  if joins.isEmpty then hydratePlain registry model rows
  else do
    let plan ← Plan.ofJoins registry model label joins
    if includes.any fun i => Text.contains i.1 '.' then Nested.scan plan includes rows
    else Flat.scan plan includes rows

end RelMap
