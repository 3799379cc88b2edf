import RelMap.OrderedMap
import RelMap.Toml.Item

/-!
Tables while a TOML document is read. A table is defined once, by a header or by dotted keys; one
that is only on the way to another can still be defined later.
-/
namespace RelMap.Toml

/-- How a table came about. -/
inductive Origin where
  | onTheWay
  | dotted
  | header
  deriving DecidableEq

inductive Node where
  | value (item : Item)
  | table (origin : Origin) (entries : List (String × Node))
  /-- An array of tables, the last one first. -/
  | tables (elements : List (List (String × Node)))

mutual
def Node.toItem : Node → Item
  | .value item => item
  | .table _ entries => .table (entriesToItems entries)
  | .tables elements => .array (elementsToItems elements).reverse

def entriesToItems : List (String × Node) → List (String × Item)
  | [] => []
  | (key, node) :: rest => (key, node.toItem) :: entriesToItems rest

def elementsToItems : List (List (String × Node)) → List Item
  | [] => []
  | entries :: rest => .table (entriesToItems entries) :: elementsToItems rest
end

abbrev Table := List (String × Node)

/-- Changes what is at a key by way of a table found there or made there. -/
def within (key : String) (made : Origin) (change : Table → Option Table) (t : Table) :
    Option Table := do
  let node ← match OrderedMap.find? key t with
    | none => (change []).map (.table made)
    | some (.table origin entries) => (change entries).map (.table origin)
    | some (.tables (last :: before)) => (change last).map fun last => .tables (last :: before)
    | some _ => none
  return OrderedMap.insert key node t

/-- Defines the table of a header. It comes last, also where it was on the way to another. -/
def defineTable : List String → Table → Option Table
  | [], _ => none
  | [key], t =>
    match OrderedMap.find? key t with
    | none => some (t ++ [(key, .table .header [])])
    | some (.table .onTheWay entries) =>
      some (OrderedMap.erase key t ++ [(key, .table .header entries)])
    | some _ => none
  | key :: rest, t => within key .onTheWay (defineTable rest) t

/-- Adds a table to the array of a header. -/
def defineElement : List String → Table → Option Table
  | [], _ => none
  | [key], t =>
    match OrderedMap.find? key t with
    | none => some (OrderedMap.insert key (.tables [[]]) t)
    | some (.tables elements) => some (OrderedMap.insert key (.tables ([] :: elements)) t)
    | some _ => none
  | key :: rest, t => within key .onTheWay (defineElement rest) t

/-- Whether dotted keys lead on from here, to a table of the next one or, as the last step, to a
value. Tables that a header has defined are not changed, and a value is only added to a table
that dotted keys have made. -/
def leadsOn (toValue : Bool) : Node → Bool
  | .value _ => false
  | .table .header _ => false
  | .table .dotted _ => true
  | .table .onTheWay _ => !toValue
  | .tables _ => !toValue

/-- Adds a value at a dotted key. -/
def addValue (item : Item) : List String → Table → Option Table
  | [], _ => none
  | [key], t => if OrderedMap.contains t key then none else some (t ++ [(key, .value item)])
  | key :: rest, t =>
    if (OrderedMap.find? key t).all (leadsOn (rest.length = 1)) then
      within key .dotted (addValue item rest) t
    else none

/-- Changes the table of a header, the last one of an array. -/
def changeAt (change : Table → Option Table) : List String → Table → Option Table
  | [], t => change t
  | key :: rest, t => within key .onTheWay (changeAt change rest) t

end RelMap.Toml
