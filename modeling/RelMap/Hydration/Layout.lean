import RelMap.Hydration.Plan
import RelMap.Record
import RelMap.Value.Key

/-!
The layout of a result: the slot and the field to which each of its columns belongs. A column is
named by the label of its table and the column of its field.
-/
namespace RelMap

structure Layout where
  /-- The slot and the field of each column. -/
  targets : List (Nat × String)
  slotCount : Nat

namespace Layout

/-- A label that a column begins with: the slot, whether its model has the rest as a column, the
length of the label, and the rest. -/
structure Candidate where
  slot : Nat
  known : Bool
  length : Nat
  rest : String

/-- Whether one candidate is preferred over an earlier one: if its column is known, and of equal
ones if its label is longer. -/
def Candidate.isBetter (new old : Candidate) : Bool :=
  if new.known = old.known then old.length < new.length else new.known

/-- The candidate of a slot whose label and an underscore begin the column. -/
def candidate? (column : List Char) (slot : Slot) (index : Nat) : Option Candidate :=
  (Text.dropStart? (slot.label.toList ++ ['_']) column).map fun rest =>
    let rest := String.ofList rest
    ⟨index, (slot.model.fieldByColumn? rest).isSome, slot.label.length, rest⟩

/-- The best of the candidates, the first one of equally good ones. -/
def best? (candidates : List Candidate) : Option Candidate :=
  candidates.foldl (fun best new => match best with
    | some old => if new.isBetter old then some new else some old
    | none => some new) none

/-- The text before and after the first dot. -/
def splitDot? (column : List Char) : Option (List Char × List Char) :=
  match column.dropWhile (· ≠ '.') with
  | [] => none
  | _ :: rest => some (column.takeWhile (· ≠ '.'), rest)

/-- The slot of a column and its name there. A column that begins with no label is one of the
first slot. -/
def resolve (p : Plan) (column : String) : Nat × String :=
  let dotted := do
    let (label, rest) ← splitDot? column.toList
    let slot ← p.slots.findIdx? fun s => s.label = String.ofList label
    return (slot, String.ofList rest)
  match dotted with
  | some target => target
  | none =>
    match best? ((p.slots.zipIdx.filterMap fun (s, i) => candidate? column.toList s i)) with
    | some c => (c.slot, c.rest)
    | none => (0, column)

/-- The layout of a result with these columns. -/
def ofColumns (p : Plan) (columns : List String) : Layout where
  targets := columns.map fun column =>
    let (slot, physical) := resolve p column
    (slot, ((p.model? slot).map (·.toField physical)).getD physical)
  slotCount := p.slots.length

/-- The records of a row, one for each slot. -/
def split (l : Layout) (values : List Value) : List Record :=
  (List.range l.slotCount).map fun i =>
    Record.ofFields ((l.targets.zip values).filterMap fun ((slot, field), value) =>
      if slot = i then some (field, value) else none)

end Layout

/-- The key of a record of a model: the keys of all its key fields, if all have one. -/
def Model.recordKey? (m : Model) (r : Record) : Option (List Key) :=
  match m.primaryKeyFields with
  | [] => (r.get m.primaryKeyName).key?.map ([·])
  | fields => fields.mapM fun f => (r.get f.name).key?

end RelMap
