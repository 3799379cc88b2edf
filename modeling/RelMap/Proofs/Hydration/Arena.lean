import RelMap.Hydration.Arena
import RelMap.Proofs.Hydration.Plan
import RelMap.Proofs.OrderedMap

/-! Arenas whose positions lead where they should: the index tells the nodes apart, and whatever is
noted under a node in a slot is a node of that slot. -/
namespace RelMap.Arena

open Nested (NodeId)

/-- The slot of a node and the key of its record. -/
def Node.id? (p : Plan) (n : Node) : Option NodeId :=
  ((p.model? n.slot).bind fun m => m.recordKey? n.record).map (NodeId.mk n.slot)

theorem Node.id?_eq {p : Plan} {i : Nat} {slot : Slot} {r : Record} {key : List Key}
    (hslot : p.slots[i]? = some slot) (hkey : slot.model.recordKey? r = some key) :
    Node.id? p { slot := i, record := r } = some ⟨i, key⟩ := by
  simp [id?, Plan.model?, hslot, hkey]

def position? (a : Arena) (id : NodeId) : Option Nat := OrderedMap.find? id a.index

/-- Each slot and key has one node, whose position the index tells. Roots are of the first slot, and
the nodes noted under a node in a slot are of that slot, which hangs from that of the node. -/
structure WellFormed (p : Plan) (a : Arena) : Prop where
  identified : ∀ node ∈ a.nodes, ∃ id, node.id? p = some id
  position?_iff : ∀ (id : NodeId) (n : Nat),
    a.position? id = some n ↔ a.nodes[n]?.bind (Node.id? p) = some id
  roots : ∀ n ∈ a.roots, ∃ node : Node, a.nodes[n]? = some node ∧ node.slot = 0
  children : ∀ (n : Nat) (node : Node) (slot : Nat), a.nodes[n]? = some node →
    ∀ child ∈ node.childrenIn slot, ∃ met : Node, a.nodes[child]? = some met ∧
      met.slot = slot ∧ p.parentOf? slot = some node.slot

theorem mem_addOnce {α : Type} [DecidableEq α] {a b : α} {l : List α} :
    b ∈ addOnce a l ↔ b ∈ l ∨ b = a := by
  unfold addOnce
  split_ifs with h
  · exact ⟨Or.inl, fun hb => hb.elim id fun he => he ▸ h⟩
  · simp

theorem Node.childrenIn_addChild (node : Node) (slot child c : Nat) :
    (node.addChild slot child).childrenIn c =
      if slot = c then addOnce child (node.childrenIn slot) else node.childrenIn c := by
  rw [childrenIn, addChild, OrderedMap.find?_insert]
  split_ifs <;> rfl

/-- An arena with one more node. -/
def grown (a : Arena) (id : NodeId) (r : Record) : Arena :=
  { a with
    nodes := a.nodes ++ [{ slot := id.slot, record := r }]
    index := OrderedMap.insert id a.nodes.length a.index }

/-- An arena in which one more node is noted under the one at `m`. -/
def linked (a : Arena) (m : Nat) (node : Node) (slot child : Nat) : Arena :=
  { a with nodes := a.nodes.set m (node.addChild slot child) }

theorem fetch_eq {α : Type} {l : List α} {i : Nat} {a : α} (h : l[i]? = some a) :
    fetch l i = .ok a := by
  rw [fetch, h]

theorem assign_eq {α : Type} {l : List α} {i : Nat} {a : α} (h : i < l.length) :
    assign l i a = .ok (l.set i a) := by
  rw [assign, if_pos h]

section
variable {p : Plan} {a : Arena} {id : NodeId} {r : Record} {n m slot child : Nat} {node : Node}

theorem lt_of_getElem? (h : a.nodes[n]? = some node) : n < a.nodes.length :=
  (List.getElem?_eq_some_iff.mp h).1

theorem nodeFor_of_some (h : a.position? id = some n) : a.nodeFor id r = (a, n) := by
  unfold position? at h
  rw [nodeFor, h]

theorem nodeFor_of_none (h : a.position? id = none) :
    a.nodeFor id r = (a.grown id r, a.nodes.length) := by
  unfold position? at h
  rw [nodeFor, h]
  rfl

theorem position?_grown (a : Arena) (id other : NodeId) (r : Record) :
    (a.grown id r).position? other = if id = other then some a.nodes.length
      else a.position? other :=
  OrderedMap.find?_insert ..

theorem getElem?_grown_new : (a.grown id r).nodes[a.nodes.length]? =
    some { slot := id.slot, record := r } :=
  List.getElem?_concat_length

theorem getElem?_grown_old (h : n ≠ a.nodes.length) :
    (a.grown id r).nodes[n]? = a.nodes[n]? := by
  rcases Nat.lt_or_gt_of_ne h with hlt | hgt
  · exact List.getElem?_append_left hlt
  · have hlength : (a.grown id r).nodes.length = a.nodes.length + 1 := List.length_append
    rw [List.getElem?_eq_none (Nat.le_of_lt hgt), List.getElem?_eq_none (by omega)]

theorem getElem?_grown (h : a.nodes[n]? = some node) : (a.grown id r).nodes[n]? = some node := by
  rw [getElem?_grown_old (Nat.ne_of_lt (lt_of_getElem? h)), h]

theorem link_eq (h : a.nodes[m]? = some node) :
    a.link m slot child = .ok (a.linked m node slot child) := by
  rw [link, fetch_eq h, ok_bind, assign_eq (lt_of_getElem? h)]
  rfl

theorem getElem?_linked_self (h : a.nodes[m]? = some node) :
    (a.linked m node slot child).nodes[m]? = some (node.addChild slot child) :=
  List.getElem?_set_self (lt_of_getElem? h)

theorem getElem?_linked_of_ne (h : m ≠ n) :
    (a.linked m node slot child).nodes[n]? = a.nodes[n]? :=
  List.getElem?_set_ne h

/-- A node keeps its slot and its record when another one is noted under it. -/
theorem exists_getElem?_linked (h : a.nodes[m]? = some node) {other : Node}
    (hn : a.nodes[n]? = some other) : ∃ new, (a.linked m node slot child).nodes[n]? = some new ∧
      new.slot = other.slot ∧ new.record = other.record := by
  by_cases he : m = n
  · subst he
    obtain rfl := Option.some.inj (h.symm.trans hn)
    exact ⟨_, getElem?_linked_self h, rfl, rfl⟩
  · exact ⟨other, (getElem?_linked_of_ne he).trans hn, rfl, rfl⟩

/-- What is noted under a node was noted there before, or is what has been added. -/
theorem of_mem_childrenIn_linked (h : a.nodes[m]? = some node) {new : Node} {c x : Nat}
    (hn : (a.linked m node slot child).nodes[n]? = some new) (hx : x ∈ new.childrenIn c) :
    ∃ old, a.nodes[n]? = some old ∧ old.slot = new.slot ∧
      (x ∈ old.childrenIn c ∨ n = m ∧ c = slot ∧ x = child) := by
  by_cases he : m = n
  · subst he
    obtain rfl := Option.some.inj ((getElem?_linked_self h).symm.trans hn)
    refine ⟨node, h, rfl, ?_⟩
    rw [Node.childrenIn_addChild] at hx
    split_ifs at hx with hc
    · subst hc
      exact (mem_addOnce.mp hx).imp_right fun hchild => ⟨rfl, rfl, hchild⟩
    · exact Or.inl hx
  · rw [getElem?_linked_of_ne he] at hn
    exact ⟨new, hn, rfl, Or.inl hx⟩

/-- What does not depend on the nodes noted under a node stays the same. -/
theorem map_linked {β : Type} {f : Node → β} (h : a.nodes[m]? = some node)
    (hf : f (node.addChild slot child) = f node) (n : Nat) :
    (a.linked m node slot child).nodes[n]?.map f = a.nodes[n]?.map f := by
  by_cases he : m = n
  · subst he
    rw [getElem?_linked_self h, h, Option.map_some, Option.map_some, hf]
  · rw [getElem?_linked_of_ne he]

end

namespace WellFormed

variable {p : Plan} {a : Arena} {id : NodeId} {r : Record} {n m slot child : Nat} {node : Node}

theorem empty (p : Plan) : WellFormed p {} where
  identified := by simp
  position?_iff := by simp [position?, OrderedMap.find?]
  roots := by simp
  children := by simp

variable (h : a.WellFormed p)
include h

theorem position?_inj {other : NodeId} (hid : a.position? id = some n)
    (hother : a.position? other = some n) : id = other := by
  rw [h.position?_iff] at hid hother
  exact Option.some.inj (hid.symm.trans hother)

theorem exists_node (hid : a.position? id = some n) :
    ∃ node, a.nodes[n]? = some node ∧ node.slot = id.slot := by
  obtain ⟨node, hnode, hnodeId⟩ := Option.bind_eq_some_iff.mp ((h.position?_iff id n).mp hid)
  obtain ⟨key, -, rfl⟩ := Option.map_eq_some_iff.mp hnodeId
  exact ⟨node, hnode, rfl⟩

theorem exists_position? (hnode : a.nodes[n]? = some node) :
    ∃ key, a.position? ⟨node.slot, key⟩ = some n := by
  obtain ⟨id, hid⟩ := h.identified node (List.mem_of_getElem? hnode)
  obtain ⟨key, -, rfl⟩ := Option.map_eq_some_iff.mp hid
  exact ⟨key, (h.position?_iff _ n).mpr (by rw [hnode, Option.bind_some, hid])⟩

theorem grown (hnew : a.position? id = none)
    (hid : Node.id? p { slot := id.slot, record := r } = some id) :
    (a.grown id r).WellFormed p where
  identified node hnode := by
    rcases List.mem_append.mp hnode with hold | hlast
    · exact h.identified node hold
    · exact ⟨id, List.mem_singleton.mp hlast ▸ hid⟩
  position?_iff other n := by
    rw [position?_grown]
    by_cases hn : n = a.nodes.length
    · subst hn
      have hold : a.position? other ≠ some a.nodes.length := by
        intro hsome
        obtain ⟨node, hnode, -⟩ := h.exists_node hsome
        exact Nat.lt_irrefl _ (lt_of_getElem? hnode)
      rw [getElem?_grown_new, Option.bind_some, hid, Option.some.injEq]
      split_ifs with he
      · exact iff_of_true rfl he
      · exact iff_of_false hold he
    · rw [getElem?_grown_old hn, ← h.position?_iff]
      split_ifs with he
      · subst he
        simp [hnew, Ne.symm hn]
      · exact Iff.rfl
  roots n hn := by
    obtain ⟨node, hnode, hslot⟩ := h.roots n hn
    exact ⟨node, getElem?_grown hnode, hslot⟩
  children n node slot hnode child hchild := by
    by_cases hn : n = a.nodes.length
    · subst hn
      rw [getElem?_grown_new] at hnode
      obtain rfl := Option.some.inj hnode
      cases hchild
    · rw [getElem?_grown_old hn] at hnode
      obtain ⟨met, hmet, hslot, hparent⟩ := h.children n node slot hnode child hchild
      exact ⟨met, getElem?_grown hmet, hslot, hparent⟩

theorem addRoot (hnode : a.nodes[n]? = some node) (hslot : node.slot = 0) :
    (a.addRoot n).WellFormed p where
  identified := h.identified
  position?_iff := h.position?_iff
  roots m hm := by
    rcases mem_addOnce.mp hm with hold | rfl
    · exact h.roots m hold
    · exact ⟨node, hnode, hslot⟩
  children := h.children

theorem linked (hnode : a.nodes[m]? = some node) {met : Node} (hmet : a.nodes[child]? = some met)
    (hslot : met.slot = slot) (hparent : p.parentOf? slot = some node.slot) :
    (a.linked m node slot child).WellFormed p where
  identified other hother := by
    rcases List.mem_or_eq_of_mem_set hother with hold | rfl
    · exact h.identified other hold
    · exact h.identified node (List.mem_of_getElem? hnode)
  position?_iff other n := by
    have hjoin : ∀ x : Option Node, x.bind (Node.id? p) = (x.map (Node.id? p)).join :=
      fun x => by cases x <;> rfl
    refine (h.position?_iff other n).trans ?_
    rw [hjoin, hjoin, map_linked hnode rfl]
  roots n hn := by
    obtain ⟨root, hroot, hzero⟩ := h.roots n hn
    obtain ⟨new, hnew, hslot, -⟩ := exists_getElem?_linked hnode hroot
    exact ⟨new, hnew, hslot.trans hzero⟩
  children n new c hnew x hx := by
    obtain ⟨old, hold, hsame, hx⟩ := of_mem_childrenIn_linked hnode hnew hx
    have hfound : ∃ found : Node, a.nodes[x]? = some found ∧ found.slot = c ∧
        p.parentOf? c = some new.slot := by
      rcases hx with hx | ⟨rfl, rfl, rfl⟩
      · exact hsame ▸ h.children n old c hold x hx
      · obtain rfl := Option.some.inj (hold.symm.trans hnode)
        exact ⟨met, hmet, hslot, hsame ▸ hparent⟩
    obtain ⟨found, hfound, hc, hup⟩ := hfound
    obtain ⟨kept, hkept, hkeptSlot, -⟩ := exists_getElem?_linked hnode hfound
    exact ⟨kept, hkept, hkeptSlot.trans hc, hup⟩

end WellFormed

end RelMap.Arena
