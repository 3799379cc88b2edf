import RelMap.Hydration.Layout
import RelMap.Include
import RelMap.Row

/-!
Hydration of records whose relations may hang from one another. Every slot and key is one node,
whichever rows and parents it is met under; the links between nodes are kept in the order in
which they are first met.
-/
namespace RelMap.Nested

/-- A record of a result: its slot and its key. -/
structure NodeId where
  slot : Nat
  key : List Key
  deriving DecidableEq

/-- A node and the node that it is met under. -/
structure Link where
  parent : NodeId
  child : NodeId
  deriving DecidableEq

/-- What has been read of a result. -/
structure Store where
  /-- The record of every node, as it was first met. -/
  nodes : List (NodeId × Record) := []
  links : List Link := []
  roots : List NodeId := []

namespace Store

def addNode (s : Store) (id : NodeId) (r : Record) : Store :=
  { s with nodes := OrderedMap.insertNew id r s.nodes }

def addRoot (s : Store) (id : NodeId) : Store :=
  if id ∈ s.roots then s else { s with roots := s.roots ++ [id] }

def addLink (s : Store) (link : Link) : Store :=
  if link ∈ s.links then s else { s with links := s.links ++ [link] }

/-- Adds the record of one slot of a row. `present` holds the nodes of the slots before it, which
a record without a key or without a parent does not join. -/
def addPart (state : Store × List (Option NodeId)) (part : Slot × Record) :
    Store × List (Option NodeId) :=
  let (s, present) := state
  let (slot, r) := part
  let absent := (s, present ++ [none])
  match slot.model.recordKey? r with
  | none => absent
  | some key =>
    let id : NodeId := ⟨present.length, key⟩
    match slot.parent? with
    | none => ((s.addNode id r).addRoot id, present ++ [some id])
    | some parent =>
      match present[parent]?.join with
      | none => absent
      | some parent => ((s.addNode id r).addLink ⟨parent, id⟩, present ++ [some id])

/-- Adds a row, given the records of its slots. -/
def addRow (p : Plan) (s : Store) (parts : List Record) : Store :=
  ((p.slots.zip parts).foldl addPart (s, [])).1

/-- The keys of the nodes of a slot that were met under a node. -/
def childKeys (s : Store) (id : NodeId) (slot : Nat) : List (List Key) :=
  (s.links.filter fun l => l.parent = id && l.child.slot = slot).map fun l => l.child.key

def record (s : Store) (id : NodeId) : Record := (OrderedMap.find? id s.nodes).getD {}

end Store

/-- The records met under a relation, as that relation holds them. -/
def related (s : Slot) (records : List Record) : Related :=
  if s.isToMany then .many records else .one records.head?

/-- The record of a node with its relations, of which `keep` says what is kept in the slot at a
position. -/
def materialize (p : Plan) (keep : Nat → Slot → Related → Except Error Related) (s : Store)
    (id : NodeId) : Except Error Record :=
  (p.childrenOf id.slot).attach.foldlM (fun r ⟨i, _⟩ =>
    match p.slots[i]? with
    | none => .ok r
    | some slot =>
      match slot.branch with
      | none => .ok r
      | some b => do
        let children ← (s.childKeys id i).mapM fun key => materialize p keep s ⟨i, key⟩
        return r.setRelation b.relation (← keep i slot (related slot children))) (s.record id)
termination_by p.slots.length - id.slot
decreasing_by
  have := Plan.lt_of_mem_childrenOf ‹_ ∈ p.childrenOf id.slot›
  omega

/-- The records of a result, given what is kept of the related records in each slot. -/
def scanKeeping (p : Plan) (keep : Nat → Slot → Related → Except Error Related) (rows : RowSet) :
    Except Error (List Record) := do
  let layout := Layout.ofColumns p rows.columns
  let parts ← rows.mapRows fun row => .ok (layout.split row.values)
  let s := parts.foldl (Store.addRow p) {}
  s.roots.mapM (materialize p keep s)

/-- The records of a result. -/
def scan [Regex.Engine] (p : Plan) (includes : Includes) (rows : RowSet) :
    Except Error (List Record) :=
  scanKeeping p (fun _ s => includes.apply s.path s.model) rows

end RelMap.Nested
