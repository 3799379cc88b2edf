import RelMap.Hydration.Nested
import RelMap.Proofs.FirstSeen
import RelMap.Proofs.Hydration.Plan
import RelMap.Proofs.OrderedMap

/-! What each row of a result tells of the slots of a plan. A scan notes these sightings one by
one, and what it keeps of them can be read off the rows. -/
namespace RelMap.Nested

theorem recordKey?_of_null {m : Model} {r : Record} (h : ∀ name, r.get name = .null) :
    m.recordKey? r = none := by
  unfold Model.recordKey?
  split
  · rw [h]
    rfl
  · next hne =>
    cases hfields : m.primaryKeyFields with
    | nil => exact absurd hfields hne
    | cons f rest => simp [h, Value.key?]

/-- The key of the record that a row has for a slot. -/
def ownKey? (p : Plan) (parts : List Record) (i : Nat) : Option (List Key) :=
  p.slots[i]?.bind fun s => parts[i]?.bind s.model.recordKey?

/-- The key of a slot that is present in a row: there are keys for it and for all slots above. -/
def keyIn? (p : Plan) (parts : List Record) (i : Nat) : Option (List Key) :=
  if (p.lineage i).all fun a => (ownKey? p parts a).isSome then ownKey? p parts i else none

/-- What a row tells of one slot: a node, its record, and the node that it is met under. -/
structure Sighting where
  id : NodeId
  record : Record
  parent : Option NodeId

/-- The node of a slot that is present in a row. -/
def nodeIn? (p : Plan) (parts : List Record) (i : Nat) : Option NodeId :=
  (keyIn? p parts i).map (NodeId.mk i)

/-- The key that a sighting adds to the children of a node in a slot. -/
def Sighting.childKey? (x : Sighting) (id : NodeId) (child : Nat) : Option (List Key) :=
  ((x.parent.map (Link.mk · x.id)).filter fun l => l.parent = id && l.child.slot = child).map
    fun l => l.child.key

def sighting? (p : Plan) (parts : List Record) (i : Nat) : Option Sighting :=
  (nodeIn? p parts i).bind fun id => parts[i]?.map fun r =>
    ⟨id, r, (p.parentOf? i).bind (nodeIn? p parts)⟩

/-- What a row tells, slot by slot. -/
def sightings (p : Plan) (parts : List Record) : List Sighting :=
  (List.range p.slots.length).filterMap (sighting? p parts)

/-- The keys of the first slot in the order in which they are first met. -/
def rootKeys (p : Plan) (rows : List (List Record)) : List (List Key) :=
  (rows.filterMap fun parts => keyIn? p parts 0).eraseDups

/-- The keys of the slot `child` in the rows in which the slot above it has this key, in the order
in which they are first met. -/
def childKeys (p : Plan) (rows : List (List Record)) (slot : Nat) (key : List Key) (child : Nat) :
    List (List Key) :=
  (rows.filterMap fun parts =>
    if keyIn? p parts slot = some key then keyIn? p parts child else none).eraseDups

/-- The record of a slot in the first row in which the slot is present with this key. -/
def firstRecord (p : Plan) (rows : List (List Record)) (slot : Nat) (key : List Key) : Record :=
  (rows.findSome? fun parts =>
    if keyIn? p parts slot = some key then parts[slot]? else none).getD {}

def Store.note (s : Store) (x : Sighting) : Store :=
  match x.parent with
  | none => (s.addNode x.id x.record).addRoot x.id
  | some parent => (s.addNode x.id x.record).addLink ⟨parent, x.id⟩

section
variable {p : Plan} {parts : List Record} {i : Nat}

theorem keyIn?_of_parentOf?_eq_none (h : p.parentOf? i = none) :
    keyIn? p parts i = ownKey? p parts i := by
  unfold keyIn?
  rw [p.lineage_eq, h]
  cases h : ownKey? p parts i <;> simp [h]

theorem keyIn?_of_parentOf?_eq_some {parent : Nat} (h : p.parentOf? i = some parent) :
    keyIn? p parts i = (keyIn? p parts parent).bind fun _ => ownKey? p parts i := by
  have hparent : (keyIn? p parts parent).isSome =
      (p.lineage parent).all fun a => (ownKey? p parts a).isSome := by
    unfold keyIn?
    split_ifs with hall
    · rw [hall, List.all_eq_true.mp hall parent (by rw [p.lineage_eq]; exact List.mem_cons_self)]
    · simpa using hall
  rw [keyIn?, p.lineage_eq, h, Option.map_some, Option.getD_some, List.all_cons, ← hparent]
  cases keyIn? p parts parent <;> cases ownKey? p parts i <;> simp

theorem ownKey?_eq {slot : Slot} {r : Record} (hslot : p.slots[i]? = some slot)
    (hr : parts[i]? = some r) : ownKey? p parts i = slot.model.recordKey? r := by
  rw [ownKey?, hslot, Option.bind_some, hr, Option.bind_some]

theorem ownKey?_of_keyIn? {key : List Key} (h : keyIn? p parts i = some key) :
    ownKey? p parts i = some key := by
  unfold keyIn? at h
  split_ifs at h
  exact h

theorem nodeIn?_of_root (h : p.parentOf? i = none) :
    nodeIn? p parts i = (ownKey? p parts i).map (NodeId.mk i) := by
  rw [nodeIn?, keyIn?_of_parentOf?_eq_none h]

theorem nodeIn?_of_child {parent : Nat} (h : p.parentOf? i = some parent) : nodeIn? p parts i =
    (nodeIn? p parts parent).bind fun _ => (ownKey? p parts i).map (NodeId.mk i) := by
  rw [nodeIn?, keyIn?_of_parentOf?_eq_some h, nodeIn?]
  cases keyIn? p parts parent <;> rfl

theorem slot_of_nodeIn? {id : NodeId} (h : nodeIn? p parts i = some id) : id.slot = i := by
  obtain ⟨key, -, rfl⟩ := Option.map_eq_some_iff.mp h
  rfl

theorem addPart_eq {slot : Slot} {r : Record} (hslot : p.slots[i]? = some slot)
    (hr : parts[i]? = some r) (s : Store) :
    Store.addPart (s, (List.range i).map (nodeIn? p parts)) (slot, r) =
      ((sighting? p parts i).toList.foldl Store.note s,
        (List.range (i + 1)).map (nodeIn? p parts)) := by
  have hown := ownKey?_eq hslot hr
  have hparent := Plan.parentOf?_of_getElem? hslot
  rw [List.range_succ, List.map_append, List.map_singleton]
  unfold Store.addPart
  dsimp only
  cases hp : slot.parent? with
  | none =>
    rw [hp] at hparent
    have hkey := (keyIn?_of_parentOf?_eq_none hparent).trans hown
    split <;> next h => simp [nodeIn?, sighting?, hkey, h, hr, hparent, Store.note]
  | some parent =>
    rw [hp] at hparent
    have hkey : keyIn? p parts i = (keyIn? p parts parent).bind fun _ => ownKey? p parts i :=
      keyIn?_of_parentOf?_eq_some hparent
    have hlt : ((List.range i).map (nodeIn? p parts))[parent]?.join = nodeIn? p parts parent := by
      simp [List.getElem?_range (Plan.parentOf?_lt hparent)]
    rw [hown] at hkey
    split
    · next h => simp [nodeIn?, sighting?, hkey, h]
    · next key h =>
      dsimp only
      rw [hlt]
      rw [h] at hkey
      cases hup : keyIn? p parts parent <;>
        simp [nodeIn?, sighting?, hkey, hup, hr, hparent, Store.note]

/-- A row adds to a store what it tells, and nothing else. -/
theorem addRow_eq (hlen : parts.length = p.slots.length) (s : Store) :
    Store.addRow p s parts = (sightings p parts).foldl Store.note s := by
  have hprefix : ∀ n ≤ p.slots.length, ((p.slots.zip parts).take n).foldl Store.addPart (s, []) =
      (((List.range n).filterMap (sighting? p parts)).foldl Store.note s,
        (List.range n).map (nodeIn? p parts)) := by
    intro n hn
    induction n with
    | zero => rfl
    | succ n ih =>
      have hlt : n < (p.slots.zip parts).length := by rw [List.length_zip]; omega
      rw [List.take_succ_eq_append_getElem hlt, List.foldl_append, ih (by omega),
        List.getElem_zip, List.foldl_cons, List.foldl_nil,
        addPart_eq (List.getElem?_eq_getElem _) (List.getElem?_eq_getElem _), List.range_succ,
        List.filterMap_append, List.foldl_append]
      cases h : sighting? p parts n <;> simp [h]
  have hall := hprefix p.slots.length (Nat.le_refl _)
  rw [List.take_of_length_le (by rw [List.length_zip]; omega)] at hall
  rw [Store.addRow, hall]
  rfl

end

theorem filterMap_range_of_unique {α : Type} {f : Nat → Option α} {i n : Nat} (hi : i < n)
    (h : ∀ j, j ≠ i → f j = none) : (List.range n).filterMap f = (f i).toList := by
  induction n with
  | zero => omega
  | succ n ih =>
    rw [List.range_succ, List.filterMap_append]
    rcases Nat.lt_succ_iff_lt_or_eq.mp hi with hlt | rfl
    · rw [ih hlt, List.filterMap_cons_none (h n (by omega))]
      simp
    · have hnil : (List.range i).filterMap f = [] :=
        List.filterMap_eq_nil_iff.mpr fun j hj => h j (by have := List.mem_range.mp hj; omega)
      rw [hnil]
      cases hf : f i <;> simp [hf]

/-- What can be told of one slot alone is told by its sighting in each row. -/
theorem filterMap_sightings {α : Type} {p : Plan} {i : Nat} (hi : i < p.slots.length)
    {f : Sighting → Option α} (rows : List (List Record))
    (h : ∀ parts j, j ≠ i → (sighting? p parts j).bind f = none) :
    (rows.flatMap (sightings p)).filterMap f =
      rows.filterMap fun parts => (sighting? p parts i).bind f := by
  rw [List.filterMap_flatMap, List.filterMap_eq_flatMap_toList]
  congr 1
  funext parts
  rw [sightings, List.filterMap_filterMap, filterMap_range_of_unique hi (h parts)]

section
variable {p : Plan} {parts : List Record} {i : Nat}

theorem sighting?_of_nodeIn?_eq_none (h : nodeIn? p parts i = none) :
    sighting? p parts i = none := by
  rw [sighting?, h, Option.bind_none]

theorem sighting?_of_nodeIn?_eq_some {id : NodeId} (h : nodeIn? p parts i = some id) :
    ∃ key r, id = ⟨i, key⟩ ∧ keyIn? p parts i = some key ∧ parts[i]? = some r ∧
      sighting? p parts i = some ⟨id, r, (p.parentOf? i).bind (nodeIn? p parts)⟩ := by
  obtain ⟨key, hkey, rfl⟩ := Option.map_eq_some_iff.mp h
  obtain ⟨slot, -, hr⟩ := Option.bind_eq_some_iff.mp (ownKey?_of_keyIn? hkey)
  obtain ⟨r, hr, -⟩ := Option.bind_eq_some_iff.mp hr
  refine ⟨key, r, rfl, hkey, hr, ?_⟩
  rw [sighting?, h, Option.bind_some, hr, Option.map_some]

/-- A slot is met under the slot above it, wherever there is one. -/
theorem nodeIn?_parent {parent : Nat} (hp : p.parentOf? i = some parent)
    (h : nodeIn? p parts i ≠ none) : ∃ id, nodeIn? p parts parent = some id := by
  obtain ⟨id, hid⟩ := Option.ne_none_iff_exists'.mp h
  obtain ⟨key, hkey, -⟩ := Option.map_eq_some_iff.mp hid
  rw [keyIn?_of_parentOf?_eq_some hp] at hkey
  obtain ⟨up, hup, -⟩ := Option.bind_eq_some_iff.mp hkey
  exact ⟨⟨parent, up⟩, by rw [nodeIn?, hup, Option.map_some]⟩

theorem lt_of_nodeIn? (h : nodeIn? p parts i ≠ none) : i < p.slots.length := by
  by_contra hge
  refine h ?_
  rw [nodeIn?, keyIn?, ownKey?, List.getElem?_eq_none (by omega)]
  simp

end

/-- The roots, links and records that sightings leave in a store. -/
structure Store.Holds (s : Store) (seen : List Sighting) : Prop where
  roots_eq : s.roots =
    (seen.filterMap fun x => if x.parent = none then some x.id else none).eraseDups
  links_eq : s.links = (seen.filterMap fun x => x.parent.map (Link.mk · x.id)).eraseDups
  find?_eq : ∀ id, OrderedMap.find? id s.nodes =
    seen.findSome? fun x => if x.id = id then some x.record else none

theorem Store.Holds.note {s : Store} {seen : List Sighting} (h : s.Holds seen) (x : Sighting) :
    (s.note x).Holds (seen ++ [x]) := by
  have hnode : ∀ id, OrderedMap.find? id (s.addNode x.id x.record).nodes =
      (seen ++ [x]).findSome? fun x => if x.id = id then some x.record else none := by
    intro id
    rw [addNode, OrderedMap.find?_insertNew, h.find?_eq, List.findSome?_append]
    by_cases hid : x.id = id <;> simp [hid]
  cases hp : x.parent with
  | none =>
    have hs : s.note x = (s.addNode x.id x.record).addRoot x.id := by simp [Store.note, hp]
    rw [hs]
    refine ⟨?_, ?_, fun id => ?_⟩
    · rw [List.filterMap_append, List.filterMap_cons_some (by rw [if_pos hp]),
        List.filterMap_nil, eraseDups_concat, ← h.roots_eq, addRoot]
      have hmem : x.id ∈ s.roots ↔ x.id ∈ seen.filterMap fun x =>
          if x.parent = none then some x.id else none := by
        rw [h.roots_eq, List.mem_eraseDups]
      simp only [addNode, hmem]
      split_ifs <;> rfl
    · rw [List.filterMap_append, List.filterMap_cons_none (by rw [hp]; rfl), List.filterMap_nil,
        List.append_nil, ← h.links_eq, addRoot]
      split_ifs <;> rfl
    · rw [← hnode id, addRoot]
      split_ifs <;> rfl
  | some parent =>
    have hs : s.note x = (s.addNode x.id x.record).addLink ⟨parent, x.id⟩ := by
      simp [Store.note, hp]
    rw [hs]
    refine ⟨?_, ?_, fun id => ?_⟩
    · rw [List.filterMap_append, List.filterMap_cons_none (by simp [hp]), List.filterMap_nil,
        List.append_nil, ← h.roots_eq, addLink]
      split_ifs <;> rfl
    · rw [List.filterMap_append, List.filterMap_cons_some (by rw [hp]; rfl), List.filterMap_nil,
        eraseDups_concat, ← h.links_eq, addLink]
      have hmem : (⟨parent, x.id⟩ : Link) ∈ s.links ↔ (⟨parent, x.id⟩ : Link) ∈
          seen.filterMap fun x => x.parent.map (Link.mk · x.id) := by
        rw [h.links_eq, List.mem_eraseDups]
      simp only [addNode, hmem]
      split_ifs <;> rfl
    · rw [← hnode id, addLink]
      split_ifs <;> rfl

theorem Store.holds_foldl (seen : List Sighting) : (seen.foldl Store.note {}).Holds seen := by
  induction seen using List.reverseRecOn with
  | nil => exact ⟨rfl, rfl, fun id => rfl⟩
  | append_singleton seen x ih =>
    rw [List.foldl_append]
    exact ih.note x

/-- A store holds what all rows tell that have been added to it. -/
theorem Store.holds_rows {p : Plan} {rows : List (List Record)}
    (hlen : ∀ parts ∈ rows, parts.length = p.slots.length) :
    (rows.foldl (addRow p) {}).Holds (rows.flatMap (sightings p)) := by
  have hnotes : ∀ s, rows.foldl (addRow p) s = (rows.flatMap (sightings p)).foldl Store.note s := by
    intro s
    induction rows generalizing s with
    | nil => rfl
    | cons parts rows ih =>
      rw [List.foldl_cons, List.flatMap_cons, List.foldl_append,
        addRow_eq (hlen parts List.mem_cons_self),
        ih fun other hother => hlen other (List.mem_cons_of_mem _ hother)]
  rw [hnotes]
  exact holds_foldl _

section
variable {p : Plan} {s : Store} {rows : List (List Record)}
  (h : s.Holds (rows.flatMap (sightings p)))
include h

theorem Store.Holds.roots_eq_rootKeys (hpos : 0 < p.slots.length)
    (hroot : ∀ i < p.slots.length, p.parentOf? i = none ↔ i = 0) :
    s.roots = (rootKeys p rows).map (NodeId.mk 0) := by
  have hother : ∀ parts j, j ≠ 0 → ((sighting? p parts j).bind fun x =>
      if x.parent = none then some x.id else none) = none := by
    intro parts j hj
    cases hnode : nodeIn? p parts j with
    | none => rw [sighting?_of_nodeIn?_eq_none hnode, Option.bind_none]
    | some id =>
      have hlt := lt_of_nodeIn? (by rw [hnode]; simp)
      obtain ⟨parent, hparent⟩ :=
        Option.ne_none_iff_exists'.mp (mt (hroot j hlt).mp hj)
      obtain ⟨up, hup⟩ := nodeIn?_parent hparent (by rw [hnode]; simp)
      obtain ⟨key, r, -, -, -, hs⟩ := sighting?_of_nodeIn?_eq_some hnode
      simp [hs, hparent, hup]
  have hself : ∀ parts, ((sighting? p parts 0).bind fun x =>
      if x.parent = none then some x.id else none) = nodeIn? p parts 0 := by
    intro parts
    cases hnode : nodeIn? p parts 0 with
    | none => rw [sighting?_of_nodeIn?_eq_none hnode, Option.bind_none]
    | some id =>
      obtain ⟨key, r, -, -, -, hs⟩ := sighting?_of_nodeIn?_eq_some hnode
      simp [hs, (hroot 0 hpos).mpr rfl]
  rw [h.roots_eq, filterMap_sightings hpos rows hother]
  simp only [hself, nodeIn?]
  rw [← List.map_filterMap, rootKeys, map_eraseDups fun a _ b _ hab => by injection hab]

theorem Store.Holds.childKeys_eq {id : NodeId} {child : Nat}
    (hchild : p.parentOf? child = some id.slot) :
    s.childKeys id child = Nested.childKeys p rows id.slot id.key child := by
  have hother : ∀ parts j, j ≠ child →
      (sighting? p parts j).bind (·.childKey? id child) = none := by
    intro parts j hj
    cases hnode : nodeIn? p parts j with
    | none => rw [sighting?_of_nodeIn?_eq_none hnode, Option.bind_none]
    | some other =>
      obtain ⟨key, r, rfl, -, -, hs⟩ := sighting?_of_nodeIn?_eq_some hnode
      cases hup : (p.parentOf? j).bind (nodeIn? p parts) <;> simp [hs, Sighting.childKey?, hj, hup]
  have hself : ∀ parts, (sighting? p parts child).bind (·.childKey? id child) =
      if keyIn? p parts id.slot = some id.key then keyIn? p parts child else none := by
    intro parts
    cases hnode : nodeIn? p parts child with
    | none =>
      rw [sighting?_of_nodeIn?_eq_none hnode, Option.bind_none]
      rw [nodeIn?, Option.map_eq_none_iff] at hnode
      simp [hnode]
    | some other =>
      obtain ⟨key, r, rfl, hkey, -, hs⟩ := sighting?_of_nodeIn?_eq_some hnode
      obtain ⟨up, hup⟩ := nodeIn?_parent hchild (by rw [hnode]; simp)
      obtain ⟨above, habove, rfl⟩ := Option.map_eq_some_iff.mp hup
      have hid : (⟨id.slot, above⟩ : NodeId) = id ↔ above = id.key := by
        obtain ⟨slot, key'⟩ := id
        simp
      by_cases he : above = id.key <;>
        simp [hs, Sighting.childKey?, hchild, hup, hkey, habove, hid, he]
  have hinj : ∀ a b : Link, a.parent = id ∧ a.child.slot = child →
      b.parent = id ∧ b.child.slot = child → a.child.key = b.child.key → a = b := by
    rintro ⟨_, ⟨_, _⟩⟩ ⟨_, ⟨_, _⟩⟩ ha hb hab
    simp_all
  rw [Store.childKeys, h.links_eq, filter_eraseDups, map_eraseDups fun a ha b hb =>
    hinj a b (by simpa using List.of_mem_filter ha) (by simpa using List.of_mem_filter hb),
    List.filter_filterMap, List.map_filterMap]
  have hlt : child < p.slots.length := by
    obtain ⟨b, hb, -⟩ := Option.map_eq_some_iff.mp hchild
    obtain ⟨slot, hslot, -⟩ := Option.bind_eq_some_iff.mp hb
    exact (List.getElem?_eq_some_iff.mp hslot).1
  have hkeys := filterMap_sightings hlt rows hother
  unfold Sighting.childKey? at hkeys
  rw [hkeys, Nested.childKeys]
  exact congrArg (fun f => (rows.filterMap f).eraseDups) (funext hself)

theorem Store.Holds.record_eq {id : NodeId} (hid : id.slot < p.slots.length) :
    s.record id = firstRecord p rows id.slot id.key := by
  have hother : ∀ parts j, j ≠ id.slot → ((sighting? p parts j).bind fun x =>
      if x.id = id then some x.record else none) = none := by
    intro parts j hj
    cases hnode : nodeIn? p parts j with
    | none => rw [sighting?_of_nodeIn?_eq_none hnode, Option.bind_none]
    | some other =>
      obtain ⟨key, r, rfl, -, -, hs⟩ := sighting?_of_nodeIn?_eq_some hnode
      have hne : (⟨j, key⟩ : NodeId) ≠ id := fun he => hj (by rw [← he])
      simp [hs, hne]
  have hself : ∀ parts, ((sighting? p parts id.slot).bind fun x =>
      if x.id = id then some x.record else none) =
      if keyIn? p parts id.slot = some id.key then parts[id.slot]? else none := by
    intro parts
    cases hnode : nodeIn? p parts id.slot with
    | none =>
      rw [sighting?_of_nodeIn?_eq_none hnode, Option.bind_none]
      rw [nodeIn?, Option.map_eq_none_iff] at hnode
      simp [hnode]
    | some other =>
      obtain ⟨key, r, rfl, hkey, hr, hs⟩ := sighting?_of_nodeIn?_eq_some hnode
      obtain ⟨slot, key'⟩ := id
      simp [hs, hkey, hr]
  rw [record, h.find?_eq, firstRecord, ← List.head?_filterMap, ← List.head?_filterMap,
    filterMap_sightings hid rows hother]
  simp only [hself]

end

end RelMap.Nested
