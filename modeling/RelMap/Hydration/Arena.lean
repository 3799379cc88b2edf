import RelMap.Hydration.Nested

/-!
Hydration of nested records in an arena. Nodes have positions, at which they are found again, and
each keeps the positions of the nodes that were met under it. Nothing is taken for granted here: a
position where nothing is ends a hydration, and so does a nesting deeper than it may become.
-/
namespace RelMap

open Nested (NodeId)

namespace Arena

/-- What a hydration ends with instead of records. -/
inductive Stop where
  | reported (e : Error)
  | outside (position : Nat)
  | tooDeep

/-- A record, its slot, and the positions of the nodes met under it in each slot. -/
structure Node where
  slot : Nat
  record : Record
  children : List (Nat × List Nat) := []

end Arena

/-- What has been read of a result. -/
structure Arena where
  nodes : List Arena.Node := []
  /-- The position of the node of each slot and key. -/
  index : List (NodeId × Nat) := []
  roots : List Nat := []

namespace Arena

/-- What is at a position. -/
def fetch {α : Type} (l : List α) (i : Nat) : Except Stop α :=
  match l[i]? with
  | some a => .ok a
  | none => .error (.outside i)

/-- Puts something at a position. -/
def assign {α : Type} (l : List α) (i : Nat) (a : α) : Except Stop (List α) :=
  if i < l.length then .ok (l.set i a) else .error (.outside i)

def report {α : Type} (x : Except Error α) : Except Stop α := x.mapError .reported

/-- Adds what is not there yet. -/
def addOnce {α : Type} [DecidableEq α] (a : α) (l : List α) : List α :=
  if a ∈ l then l else l ++ [a]

/-- The positions of the nodes of a slot that were met under a node. -/
def Node.childrenIn (n : Node) (slot : Nat) : List Nat := (OrderedMap.find? slot n.children).getD []

def Node.addChild (n : Node) (slot child : Nat) : Node :=
  { n with children := OrderedMap.insert slot (addOnce child (n.childrenIn slot)) n.children }

/-- The position of the node of a slot and key, which is added with this record if there is none. -/
def nodeFor (a : Arena) (id : NodeId) (r : Record) : Arena × Nat :=
  match OrderedMap.find? id a.index with
  | some n => (a, n)
  | none =>
    ({ a with
        nodes := a.nodes ++ [{ slot := id.slot, record := r }]
        index := OrderedMap.insert id a.nodes.length a.index }, a.nodes.length)

def addRoot (a : Arena) (n : Nat) : Arena := { a with roots := addOnce n a.roots }

/-- Notes that a node of a slot was met under another node. -/
def link (a : Arena) (parent slot child : Nat) : Except Stop Arena := do
  let node ← fetch a.nodes parent
  return { a with nodes := ← assign a.nodes parent (node.addChild slot child) }

/-- Adds the record of one slot of a row. `present` holds the positions of the nodes that the row
has for the slots read before. -/
def addSlot (p : Plan) (parts : List Record) (state : Arena × List (Option Nat)) (i : Nat) :
    Except Stop (Arena × List (Option Nat)) := do
  let (a, present) := state
  let slot ← fetch p.slots i
  let r ← fetch parts i
  match slot.model.recordKey? r with
  | none => return (a, present)
  | some key =>
    match slot.parent? with
    | none =>
      let (a, n) := a.nodeFor ⟨i, key⟩ r
      return (a.addRoot n, ← assign present i (some n))
    | some parent =>
      match ← fetch present parent with
      | none => return (a, present)
      | some above =>
        let (a, n) := a.nodeFor ⟨i, key⟩ r
        return (← a.link above i n, ← assign present i (some n))

/-- Adds the first slots of a row, in the order of the plan. -/
def addSlots (p : Plan) (a : Arena) (parts : List Record) (count : Nat) :
    Except Stop (Arena × List (Option Nat)) :=
  (p.order.take count).foldlM (addSlot p parts) (a, List.replicate p.slots.length none)

/-- Adds a row, given the records of its slots. -/
def addRow (p : Plan) (a : Arena) (parts : List Record) : Except Stop Arena :=
  (addSlots p a parts p.order.length).map (·.1)

/-- The record at a position with its relations, nested no deeper than `depth`. -/
def materialize [Regex.Engine] (p : Plan) (includes : Includes) (a : Arena) :
    Nat → Nat → Except Stop Record
  | 0, _ => .error .tooDeep
  | depth + 1, n => do
    let node ← fetch a.nodes n
    (p.childrenOf node.slot).foldlM (fun r i => do
      let slot ← fetch p.slots i
      match slot.branch with
      | none => return r
      | some b =>
        let children ← (node.childrenIn i).mapM fun child => materialize p includes a depth child
        return r.setRelation b.relation
          (← report (includes.apply slot.path slot.model (Nested.related slot children))))
      node.record

/-- The records of a result, nested no deeper than there are slots. -/
def scan [Regex.Engine] (p : Plan) (includes : Includes) (rows : RowSet) :
    Except Stop (List Record) := do
  let layout := Layout.ofColumns p rows.columns
  let parts ← report (rows.mapRows fun row => .ok (layout.split row.values))
  let a ← parts.foldlM (addRow p) {}
  a.roots.mapM (a.materialize p includes p.slots.length)

end Arena
end RelMap
