import RelMap.Proofs.Hydration.Flat
import RelMap.Proofs.Hydration.Representation

/-! Hydration in an arena stays in bounds, whatever the rows say. It reads the same records as
hydration with slots and keys, and nests them no deeper than there are slots. -/
namespace RelMap

open Nested (NodeId Store nodeIn? ownKey? sighting?)

namespace Arena

/-- The state of a row of which the first `i` slots have been read. It has the positions of the
nodes that the row has for them. -/
structure Follows (p : Plan) (parts : List Record) (i : Nat) (state : Arena × List (Option Nat))
    (s : Store) : Prop where
  wellFormed : state.1.WellFormed p
  represents : state.1.Represents s
  length_eq : state.2.length = p.slots.length
  present : ∀ j < p.slots.length, ∃ x, state.2[j]? = some x ∧
    Option.Rel (fun n id => state.1.position? id = some n) x
      (if j < i then nodeIn? p parts j else none)

namespace Follows

variable {p : Plan} {parts : List Record} {i : Nat} {a b : Arena} {present : List (Option Nat)}
  {s s' : Store}

theorem start (hwf : a.WellFormed p) (hrep : a.Represents s) :
    Follows p parts 0 (a, List.replicate p.slots.length none) s where
  wellFormed := hwf
  represents := hrep
  length_eq := List.length_replicate
  present j hj := ⟨none, by simp [hj], .none⟩

variable (h : Follows p parts i (a, present) s) (hi : i < p.slots.length)
include h hi

theorem next (hwf : b.WellFormed p) (hrep : b.Represents s') (hextends : a.Extends b)
    {x : Option Nat}
    (hx : Option.Rel (fun n id => b.position? id = some n) x (nodeIn? p parts i)) :
    Follows p parts (i + 1) (b, present.set i x) s' where
  wellFormed := hwf
  represents := hrep
  length_eq := (List.length_set ..).trans h.length_eq
  present j hj := by
    by_cases he : i = j
    · subst he
      refine ⟨x, List.getElem?_set_self (h.length_eq ▸ hi), ?_⟩
      rwa [if_pos (Nat.lt_succ_self i)]
    · obtain ⟨y, hy, hrel⟩ := h.present j hj
      have hsame : (if j < i + 1 then nodeIn? p parts j else none) =
          if j < i then nodeIn? p parts j else none := by
        split_ifs <;> first | rfl | omega
      refine ⟨y, (List.getElem?_set_ne he).trans hy, ?_⟩
      rw [hsame]
      exact rel_imp hrel fun n id => hextends id n

/-- A slot that is not present leaves the state as it was. -/
theorem skip (hnone : nodeIn? p parts i = none) : Follows p parts (i + 1) (a, present) s := by
  obtain ⟨x, hx, hrel⟩ := h.present i hi
  rw [if_neg (Nat.lt_irrefl i)] at hrel
  obtain rfl := eq_none_of_rel_none hrel
  have hset : present.set i none = present := by
    obtain ⟨hlt, hget⟩ := List.getElem?_eq_some_iff.mp hx
    rw [← hget, List.set_getElem_self]
  have hnext := h.next hi (x := none) h.wellFormed h.represents (fun _ _ he => he)
    (by rw [hnone]; exact .none)
  rwa [hset] at hnext

end Follows

section
variable {p : Plan} {parts : List Record} {i : Nat} {a : Arena} {present : List (Option Nat)}
  {s : Store} (h : Follows p parts i (a, present) s) {slot : Slot} {r : Record}
  (hslot : p.slots[i]? = some slot) (hr : parts[i]? = some r)
include h hslot hr

/-- A slot without a key, or under a slot that is not present, adds nothing. -/
theorem addSlot_absent (hnone : nodeIn? p parts i = none) :
    addSlot p parts (a, present) i = .ok (a, present) := by
  have hown := Nested.ownKey?_eq hslot hr
  rw [addSlot, fetch_eq hslot, ok_bind, fetch_eq hr, ok_bind]
  cases hkey : slot.model.recordKey? r with
  | none => rfl
  | some key =>
    rw [hkey] at hown
    have hparent := Plan.parentOf?_of_getElem? hslot
    cases hp : slot.parent? with
    | none =>
      rw [Nested.nodeIn?_of_root (hparent.trans hp), hown] at hnone
      cases hnone
    | some parent =>
      have hlt : parent < i := Plan.parentOf?_lt (hparent.trans hp)
      obtain ⟨x, hpresent, hrel⟩ := h.present parent (Nat.lt_trans hlt (Plan.lt_of_getElem? hslot))
      have habove : nodeIn? p parts parent = none := by
        rw [Nested.nodeIn?_of_child (hparent.trans hp), hown] at hnone
        refine Option.eq_none_iff_forall_ne_some.mpr fun above habove => ?_
        cases Option.bind_eq_none_iff.mp hnone above habove
      rw [if_pos hlt, habove] at hrel
      obtain rfl := eq_none_of_rel_none hrel
      dsimp only
      rw [fetch_eq hpresent, ok_bind]
      rfl

variable {key : List Key} (hown : ownKey? p parts i = some key)
include hown

/-- The record of the first slot becomes a root. -/
theorem addSlot_root (hp : p.parentOf? i = none) (hzero : i = 0) :
    ∃ state, addSlot p parts (a, present) i = .ok state ∧
      Follows p parts (i + 1) state ((s.addNode ⟨i, key⟩ r).addRoot ⟨i, key⟩) := by
  have hi := Plan.lt_of_getElem? hslot
  have hkey := (Nested.ownKey?_eq hslot hr).symm.trans hown
  have hroot := (Plan.parentOf?_of_getElem? hslot).symm.trans hp
  have hin : nodeIn? p parts i = some ⟨i, key⟩ := by
    rw [Nested.nodeIn?_of_root hp, hown, Option.map_some]
  obtain ⟨b, n, hfor, hwf, hrep, hextends, hn⟩ :=
    h.represents.nodeFor ⟨i, key⟩ h.wellFormed (Node.id?_eq hslot hkey)
  obtain ⟨node, hnode, hnodeSlot⟩ := hwf.exists_node hn
  refine ⟨(b.addRoot n, present.set i (some n)), ?_, h.next hi
    (hwf.addRoot hnode (hnodeSlot.trans hzero)) (hrep.addRoot hwf hn) hextends
    (hin ▸ .some hn)⟩
  rw [addSlot, fetch_eq hslot, ok_bind, fetch_eq hr, ok_bind, hkey, hroot]
  dsimp only
  rw [hfor, assign_eq (h.length_eq ▸ hi)]
  rfl

/-- The record of a later slot is noted under the node of the slot above it. -/
theorem addSlot_child {parent : Nat} {above : NodeId} (hp : p.parentOf? i = some parent)
    (habove : nodeIn? p parts parent = some above) :
    ∃ state, addSlot p parts (a, present) i = .ok state ∧
      Follows p parts (i + 1) state ((s.addNode ⟨i, key⟩ r).addLink ⟨above, ⟨i, key⟩⟩) := by
  have hi := Plan.lt_of_getElem? hslot
  have hkey := (Nested.ownKey?_eq hslot hr).symm.trans hown
  have hchild := (Plan.parentOf?_of_getElem? hslot).symm.trans hp
  have hin : nodeIn? p parts i = some ⟨i, key⟩ := by
    rw [Nested.nodeIn?_of_child hp, habove, hown, Option.bind_some, Option.map_some]
  have hlt : parent < i := Plan.parentOf?_lt hp
  obtain ⟨x, hpresent, hrel⟩ := h.present parent (Nat.lt_trans hlt hi)
  rw [if_pos hlt, habove] at hrel
  obtain ⟨m, rfl, hm⟩ := exists_left_of_rel_some hrel
  obtain ⟨b, n, hfor, hwf, hrep, hextends, hn⟩ :=
    h.represents.nodeFor ⟨i, key⟩ h.wellFormed (Node.id?_eq hslot hkey)
  have hm := hextends _ _ hm
  obtain ⟨node, hnode, hnodeSlot⟩ := hwf.exists_node hn
  obtain ⟨up, hup, hupSlot⟩ := hwf.exists_node hm
  have hhangs : p.parentOf? i = some up.slot := by
    rw [hp, hupSlot, Nested.slot_of_nodeIn? habove]
  refine ⟨(b.linked m up i n, present.set i (some n)), ?_, h.next hi
    (hwf.linked hup hnode hnodeSlot hhangs) (hrep.linked hwf hm hup hn) hextends
    (hin ▸ .some hn)⟩
  rw [addSlot, fetch_eq hslot, ok_bind, fetch_eq hr, ok_bind, hkey, hchild]
  dsimp only
  rw [fetch_eq hpresent, ok_bind]
  dsimp only
  rw [hfor]
  dsimp only
  rw [link_eq hup, ok_bind, assign_eq (h.length_eq ▸ hi)]
  rfl

omit hslot hr hown in
/-- A slot of a row is read without leaving the bounds, and adds to the arena what it adds to the
store. -/
theorem addSlot_follows (hroot : p.parentOf? i = none → i = 0) (hi : i < p.slots.length)
    (hlen : parts.length = p.slots.length) :
    ∃ state, addSlot p parts (a, present) i = .ok state ∧
      Follows p parts (i + 1) state ((sighting? p parts i).toList.foldl Store.note s) := by
  have hslot := List.getElem?_eq_getElem hi
  have hr := List.getElem?_eq_getElem (hlen ▸ hi)
  cases hin : nodeIn? p parts i with
  | none =>
    rw [Nested.sighting?_of_nodeIn?_eq_none hin]
    exact ⟨_, addSlot_absent h hslot hr hin, h.skip hi hin⟩
  | some id =>
    obtain ⟨key, r, rfl, hkey, hr, hs⟩ := Nested.sighting?_of_nodeIn?_eq_some hin
    have hown := Nested.ownKey?_of_keyIn? hkey
    rw [hs]
    cases hp : p.parentOf? i with
    | none => exact addSlot_root h hslot hr hown hp (hroot hp)
    | some parent =>
      obtain ⟨above, habove⟩ := Nested.nodeIn?_parent hp (by rw [hin]; simp)
      rw [Option.bind_some, habove]
      exact addSlot_child h hslot hr hown hp habove

end

section
variable {p : Plan} {a : Arena} {s : Store} {parts : List Record}
  (hroot : ∀ i < p.slots.length, p.parentOf? i = none → i = 0)
  (hwf : a.WellFormed p) (hrep : a.Represents s)
include hroot hwf hrep

/-- The first slots of a row are read without leaving the bounds. -/
theorem addSlots_follows (hlen : parts.length = p.slots.length) {count : Nat}
    (hcount : count ≤ p.slots.length) : ∃ state, addSlots p a parts count = .ok state ∧
      Follows p parts count state
        (((List.range count).filterMap (sighting? p parts)).foldl Store.note s) := by
  rw [addSlots, Plan.order_eq, List.take_range, Nat.min_eq_left hcount]
  induction count with
  | zero => exact ⟨_, rfl, .start hwf hrep⟩
  | succ count ih =>
    obtain ⟨⟨b, present⟩, hb, hfollows⟩ := ih (Nat.le_of_succ_le hcount)
    obtain ⟨state, hstate, hnext⟩ := addSlot_follows hfollows (hroot count hcount) hcount hlen
    have hlast : [count].filterMap (sighting? p parts) = (sighting? p parts count).toList := by
      cases hs : sighting? p parts count <;> simp [hs]
    rw [List.range_succ, List.filterMap_append, List.foldl_append, hlast]
    exact ⟨state, foldlM_concat_eq_ok.mpr ⟨_, hb, hstate⟩, hnext⟩

/-- A row is read without leaving the bounds. -/
theorem addRow_represents (hlen : parts.length = p.slots.length) :
    ∃ b, addRow p a parts = .ok b ∧ b.WellFormed p ∧ b.Represents (Store.addRow p s parts) := by
  obtain ⟨state, hstate, hfollows⟩ := addSlots_follows hroot hwf hrep hlen (Nat.le_refl _)
  have hlength : p.order.length = p.slots.length := by rw [Plan.order_eq, List.length_range]
  refine ⟨state.1, by rw [addRow, hlength, hstate]; rfl, hfollows.wellFormed, ?_⟩
  rw [Nested.addRow_eq hlen]
  exact hfollows.represents

omit hwf hrep in
/-- Rows are read without leaving the bounds. -/
theorem addRows_represents {rows : List (List Record)}
    (hlen : ∀ parts ∈ rows, parts.length = p.slots.length) :
    ∃ a, rows.foldlM (addRow p) {} = .ok a ∧ a.WellFormed p ∧
      a.Represents (rows.foldl (Store.addRow p) {}) := by
  induction rows using List.reverseRecOn with
  | nil => exact ⟨{}, rfl, .empty p, .empty⟩
  | append_singleton rows parts ih =>
    obtain ⟨a, ha, hwf, hrep⟩ := ih fun other h => hlen other (List.mem_append_left _ h)
    obtain ⟨b, hb, hwf, hrep⟩ := addRow_represents hroot hwf hrep
      (hlen parts (List.mem_append_right _ (List.mem_singleton_self parts)))
    refine ⟨b, foldlM_concat_eq_ok.mpr ⟨a, ha, hb⟩, hwf, ?_⟩
    rw [List.foldl_append]
    exact hrep

end

section
variable {p : Plan} {a : Arena} {s : Store} (hwf : a.WellFormed p) (hrep : a.Represents s)
include hwf

theorem WellFormed.slot_lt {id : NodeId} {n : Nat} (hid : a.position? id = some n) :
    id.slot < p.slots.length := by
  obtain ⟨node, -, hnode⟩ := Option.bind_eq_some_iff.mp ((hwf.position?_iff id n).mp hid)
  obtain ⟨key, hkey, rfl⟩ := Option.map_eq_some_iff.mp hnode
  obtain ⟨model, hmodel, -⟩ := Option.bind_eq_some_iff.mp hkey
  obtain ⟨slot, hslot, -⟩ := Option.map_eq_some_iff.mp hmodel
  exact Plan.lt_of_getElem? hslot

include hrep

/-- A node is nested no deeper than there are slots from its own on: what is noted under it is of a
later slot, whatever its key. -/
theorem materialize_eq [Regex.Engine] (includes : Includes) {depth n : Nat} {id : NodeId}
    (hid : a.position? id = some n) (hdepth : p.slots.length ≤ id.slot + depth) :
    a.materialize p includes depth n = report (Nested.materialize p
      (fun _ slot => includes.apply slot.path slot.model) s id) := by
  induction depth generalizing n id with
  | zero => exact absurd (hwf.slot_lt hid) (Nat.not_lt.mpr hdepth)
  | succ depth ih =>
    obtain ⟨node, hnode, hslot⟩ := hwf.exists_node hid
    have hrecord : s.record id = node.record := by
      rw [Store.record, hrep.find?_nodes, hid, Option.bind_some, hnode]
      rfl
    rw [materialize, fetch_eq hnode, ok_bind, hslot, Nested.materialize_eq_foldlM, hrecord, report,
      mapError_foldlM]
    refine foldlM_congr_of_mem fun r i hi => ?_
    obtain ⟨hlater, hlt⟩ := Plan.lt_of_mem_childrenOf hi
    rw [fetch_eq (List.getElem?_eq_getElem hlt), ok_bind, List.getElem?_eq_getElem hlt]
    dsimp only
    cases p.slots[i].branch with
    | none => rfl
    | some b =>
      have hchildren : (node.childrenIn i).mapM (a.materialize p includes depth) =
          report ((s.childKeys id i).mapM fun key => Nested.materialize p
            (fun _ slot => includes.apply slot.path slot.model) s ⟨i, key⟩) := by
        rw [report, mapError_mapM]
        refine mapM_eq_of_forall₂ (hrep.children id n node hid hnode i) fun m _ key hm => ?_
        exact ih hm (by dsimp only; omega)
      dsimp only
      rw [hchildren, mapError_bind]
      refine congrArg _ (funext fun children => ?_)
      rw [mapError_bind]
      rfl

/-- Making a record of a node ends, with the record or with what an include reports. -/
theorem exists_materialize_eq [Regex.Engine] (includes : Includes) {n : Nat}
    (hn : n < a.nodes.length) :
    ∃ x, a.materialize p includes p.slots.length n = report x := by
  obtain ⟨key, hid⟩ := hwf.exists_position? (List.getElem?_eq_getElem hn)
  exact ⟨_, materialize_eq hwf hrep includes hid (Nat.le_add_left ..)⟩

end

/-- What has been read when some rows have been, and the first slots of another one. -/
def during (p : Plan) (before : List (List Record)) (parts : List Record) (count : Nat) :
    Except Stop (Arena × List (Option Nat)) := do
  addSlots p (← before.foldlM (addRow p) {}) parts count

/-- The records of a scan with positions are those of the scan with slots and keys. -/
theorem scan_eq [Regex.Engine] {p : Plan}
    (hroot : ∀ i < p.slots.length, p.parentOf? i = none → i = 0) (includes : Includes)
    (rows : RowSet) :
    scan p includes rows = report (Nested.scan p includes rows) := by
  unfold scan Nested.scan Nested.scanKeeping
  dsimp only
  by_cases hwidth : ∀ values ∈ rows.rows, values.length = rows.columns.length
  · have hlen : ∀ parts ∈ Nested.partsOf p rows, parts.length = p.slots.length :=
      fun parts => Nested.length_of_mem_partsOf
    obtain ⟨a, ha, hwf, hrep⟩ := addRows_represents hroot hlen
    have hrecords : a.roots.mapM (a.materialize p includes p.slots.length) =
        report (((Nested.partsOf p rows).foldl (Store.addRow p) {}).roots.mapM
          (Nested.materialize p (fun _ slot => includes.apply slot.path slot.model)
            ((Nested.partsOf p rows).foldl (Store.addRow p) {}))) := by
      rw [report, mapError_mapM]
      exact mapM_eq_of_forall₂ hrep.roots fun n _ id hid =>
        materialize_eq hwf hrep includes hid (Nat.le_add_left ..)
    rw [RowSet.mapRows_ok hwidth, ← Nested.partsOf]
    calc _ = (Nested.partsOf p rows).foldlM (addRow p) {} >>= fun a =>
          a.roots.mapM (a.materialize p includes p.slots.length) := rfl
      _ = a.roots.mapM (a.materialize p includes p.slots.length) := by rw [ha, ok_bind]
      _ = _ := hrecords
  · obtain ⟨e, he⟩ := RowSet.mapRows_error hwidth (Layout.ofColumns p rows.columns).split
    rw [he]
    rfl

/-- Each slot of a plan is read once, after the one it hangs from. Whatever the rows say, the arena
is well formed each time a slot has been read, and making a record of any of its nodes neither
leaves it nor nests deeper than there are slots. -/
theorem scan_inBounds [Regex.Engine] {registry : Registry} {model label : String}
    {joins : List Join} {p : Plan}
    (includes : Includes) (rows : RowSet)
    (hplan : Plan.ofJoins registry model label joins = .ok p) :
    (p.order.Nodup ∧ (∀ i, i ∈ p.order ↔ i < p.slots.length) ∧
      ∀ i parent, p.parentOf? i = some parent → p.order.idxOf parent < p.order.idxOf i) ∧
    (∀ before parts after, Nested.partsOf p rows = before ++ parts :: after →
      ∀ count ≤ p.slots.length, ∃ state, during p before parts count = .ok state ∧
        state.1.WellFormed p ∧ ∀ n < state.1.nodes.length, ∃ x,
          state.1.materialize p includes p.slots.length n = report x) ∧
    scan p includes rows = report (Nested.scan p includes rows) := by
  have hroot : ∀ i < p.slots.length, p.parentOf? i = none → i = 0 := by
    intro i hi hnone
    cases i with
    | zero => rfl
    | succ i =>
      have hslot := List.getElem?_eq_getElem hi
      obtain ⟨parent, hparent⟩ := Plan.exists_parent_of_ofJoins hplan hslot
      rw [Plan.parentOf?_of_getElem? hslot, hparent] at hnone
      cases hnone
  refine ⟨⟨p.order_nodup, fun i => Plan.mem_order, fun i parent => Plan.idxOf_parent_lt⟩, ?_,
    scan_eq hroot includes rows⟩
  intro before parts after hparts count hcount
  have hlen : ∀ other ∈ before ++ parts :: after, other.length = p.slots.length :=
    fun other hother => Nested.length_of_mem_partsOf (hparts ▸ hother)
  obtain ⟨a, ha, hwf, hrep⟩ := addRows_represents hroot fun other hother =>
    hlen other (List.mem_append_left _ hother)
  obtain ⟨state, hstate, hfollows⟩ := addSlots_follows hroot hwf hrep
    (hlen parts (List.mem_append_right _ List.mem_cons_self)) hcount
  refine ⟨state, by rw [during, ha, ok_bind, hstate], hfollows.wellFormed, fun n hn => ?_⟩
  exact exists_materialize_eq hfollows.wellFormed hfollows.represents includes hn

/-- Categories with a category above them. -/
def categories : Registry := .ofModels [{
  name := "Category", table := "categories"
  fields := [{ name := "id", primaryKey := true }, { name := "parentId", column := some "parent_id" }]
  relations := [("children", { kind := .oneToMany, model := "Category", foreignKey := "parentId" })] }]

/-- Two categories that are each other's child. -/
def cycleRows : RowSet where
  columns := ["c_id", "c2_id", "c2_parent_id", "c3_id", "c3_parent_id"]
  rows := [[.int 1, .int 2, .int 1, .int 1, .int 2], [.int 2, .int 1, .int 2, .int 2, .int 1]]

theorem scan_inBounds_cycle : ∃ p, Plan.ofJoins categories "Category" "c"
      ((Planner.start categories "c").run
        [.path "Category" "c" .left ["children", "children"]]).joins = .ok p ∧
    ∃ records, scan p [] cycleRows = .ok records := by
  have hplanned : (Plan.ofJoins categories "Category" "c" ((Planner.start categories "c").run
      [.path "Category" "c" .left ["children", "children"]]).joins).toOption.isSome = true := by
    decide +kernel
  have hwidth : ∀ values ∈ cycleRows.rows, values.length = cycleRows.columns.length := by
    decide +kernel
  cases hplan : Plan.ofJoins categories "Category" "c" ((Planner.start categories "c").run
      [.path "Category" "c" .left ["children", "children"]]).joins with
  | error e => simp [hplan, Except.toOption] at hplanned
  | ok p =>
    obtain ⟨-, -, hscan⟩ := scan_inBounds [] cycleRows hplan
    obtain ⟨records, hrecords⟩ : ∃ records, Nested.scan p [] cycleRows = .ok records := by
      rw [Nested.scan_eq_view (Plan.ofJoins_rooted hplan) [] hwidth]
      exact mapM_exists_ok fun key _ => Nested.view_exists_ok (fun i hi => by cases hi) p _ 0 key
    exact ⟨p, rfl, records, by rw [hscan, hrecords]; rfl⟩

end Arena
end RelMap
