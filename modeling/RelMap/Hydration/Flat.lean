import RelMap.Hydration.Layout
import RelMap.Include
import RelMap.Row

/-!
Hydration of records whose relations all hang from the first slot. Each record keeps the related
records of its own rows.
-/
namespace RelMap.Flat

/-- A record of the first slot, and the related records found so far by slot and key. -/
structure Entry where
  record : Record
  found : List ((Nat × List Key) × Record) := []

/-- Records of the first slot by their keys. -/
abbrev Entries := List (List Key × Entry)

/-- A plan whose slots all hang from the first one. -/
def check (p : Plan) : Except Error Unit :=
  match p.slots.find? fun s => s.parent?.any (· ≠ 0) with
  | some nested => .error (.hydration (.nestedPath nested.path))
  | none => .ok ()

/-- The related record of a row in the slot at `i`, with its key. -/
def part? (p : Plan) (i : Nat) (r : Record) : Option ((Nat × List Key) × Record) := do
  if r.allNull then none
  else
    let key ← (← p.model? i).recordKey? r
    return ((i, key), r)

/-- Adds the related records of a row, given the records of its slots after the first. -/
def Entry.add (p : Plan) (e : Entry) (parts : List Record) : Entry :=
  let new := (parts.zipIdx 1).filterMap fun (r, i) => part? p i r
  { e with found := new.foldl (fun found (key, r) => OrderedMap.insertNew key r found) e.found }

/-- Adds a row, given the records of its slots. A row without a key in the first slot is left
out. -/
def addRow (p : Plan) (entries : Entries) : List Record → Entries
  | [] => entries
  | first :: parts =>
    match (p.model? 0).bind (·.recordKey? first) with
    | none => entries
    | some key =>
      let entry := (OrderedMap.find? key entries).getD { record := first }
      OrderedMap.insert key (entry.add p parts) entries

/-- The related records of an entry in the slot at `i`. -/
def Entry.related (e : Entry) (s : Slot) (i : Nat) : Related :=
  let records := (e.found.filter fun f => f.1.1 = i).map (·.2)
  if s.isToMany then .many records else .one records.head?

/-- The record of an entry with its relations, of which `keep` says what is kept in the slot at a
position. -/
def Entry.finish (p : Plan) (keep : Nat → Slot → Related → Except Error Related) (e : Entry) :
    Except Error Record :=
  p.slots.zipIdx.foldlM (fun r (s, i) =>
    match s.branch with
    | some b => return r.setRelation b.relation (← keep i s (e.related s i))
    | none => .ok r) e.record

/-- The records of a result, given what is kept of the related records in each slot. -/
def scanKeeping (p : Plan) (keep : Nat → Slot → Related → Except Error Related) (rows : RowSet) :
    Except Error (List Record) := do
  check p
  let layout := Layout.ofColumns p rows.columns
  let parts ← rows.mapRows fun row => .ok (layout.split row.values)
  (parts.foldl (addRow p) []).mapM fun (_, entry) => entry.finish p keep

/-- The records of a result. -/
def scan [Regex.Engine] (p : Plan) (includes : Includes) (rows : RowSet) :
    Except Error (List Record) :=
  scanKeeping p (fun _ s => includes.apply s.path s.model) rows

end RelMap.Flat
