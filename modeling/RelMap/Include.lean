import RelMap.Condition.Evaluate
import RelMap.Schema.Model
import RelMap.Sort

/-!
Includes: the relations that a query asks for with its records, and what is kept of the related
records: a filter, an order, a window and a choice of fields.
-/
namespace RelMap

structure Include where
  path : String
  /-- The fields to keep beside those of the key; all when empty. -/
  select : List String := []
  filter : Option Condition := none
  orderBy : List SortTerm := []
  limit : Option Nat := none
  offset : Option Nat := none

namespace Include

/-- Whether an include keeps related records as they are. -/
def isNoop (i : Include) : Bool :=
  i.select.isEmpty && i.filter.isNone && i.orderBy.isEmpty && i.limit.isNone && i.offset.isNone

/-- The order of two values under a sort term. `NULL` has its own place whatever the direction,
and values that are not comparable are in no order. -/
def compareValues (term : SortTerm) (a b : Value) : Ordering :=
  match a.isNull, b.isNull with
  | true, true => .eq
  | true, false => if term.nulls = some .first then .lt else .gt
  | false, true => if term.nulls = some .first then .gt else .lt
  | false, false =>
    let order := (a.compare? b).getD .eq
    match term.direction with
    | .ascending => order
    | .descending => order.swap

/-- The order of two records: that of the first sort term that tells them apart. -/
def compareRecords (terms : List SortTerm) (a b : Record) : Ordering :=
  match terms with
  | [] => .eq
  | term :: rest =>
    (compareValues term (a.get term.field) (b.get term.field)).then (compareRecords rest a b)

/-- Inserts a record before the greater ones at the start of a list in descending order. -/
def insertDescending (terms : List SortTerm) (r : Record) : List Record → List Record
  | [] => [r]
  | s :: rest =>
    if compareRecords terms r s = .lt then s :: insertDescending terms r rest else r :: s :: rest

/-- Sorts records; those that are equal under the terms keep their order. -/
def sortRecords (terms : List SortTerm) (records : List Record) : List Record :=
  (records.foldl (fun done r => insertDescending terms r done) []).reverse

/-- The records that satisfy the filter. -/
def keepMatching [Regex.Engine] (i : Include) (records : List Record) :
    Except Error (List Record) :=
  match i.filter with
  | some condition => records.filterM condition.evaluate
  | none => .ok records

/-- The records inside the window of offset and limit. -/
def window (i : Include) (records : List Record) : List Record :=
  let records := records.drop (i.offset.getD 0)
  match i.limit with
  | some limit => records.take limit
  | none => records

/-- The record with the chosen fields and those of the key. -/
def project (i : Include) (model : Model) (r : Record) : Record :=
  if i.select.isEmpty then r
  else
    let key := model.primaryKeyFields.map Field.name
    r.retain fun name => key.contains name || i.select.contains name

/-- What is kept of the records of a model: filtered, sorted, cut to the window and reduced to
the chosen fields. -/
def process [Regex.Engine] (i : Include) (model : Model) (records : List Record) :
    Except Error (List Record) :=
  return (i.window (sortRecords i.orderBy (← i.keepMatching records))).map (i.project model)

/-- What is kept of the records met under a relation. A single one is a list of its own. -/
def apply [Regex.Engine] (i : Include) (model : Model) (related : Related) : Except Error Related :=
  if i.isNoop then .ok related
  else match related with
    | .many records => return .many (← i.process model records)
    | .one (some record) => return .one (← i.process model [record]).head?
    | .one none => .ok (.one none)

end Include

/-- Includes by their paths. -/
abbrev Includes := List (String × Include)

namespace Includes

def ofList (includes : List Include) : Includes :=
  OrderedMap.ofList (includes.map fun i => (i.path, i))

def find? (includes : Includes) (path : String) : Option Include :=
  OrderedMap.find? path includes

/-- What is kept of the records at the end of a path. -/
def apply [Regex.Engine] (includes : Includes) (path : String) (model : Model)
    (related : Related) : Except Error Related :=
  match includes.find? path with
  | none => .ok related
  | some i => i.apply model related

end Includes
end RelMap
