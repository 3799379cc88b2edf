import RelMap.Proofs.Hydration.Arena
import RelMap.Proofs.Hydration.Order
import RelMap.Proofs.Hydration.Sighting

/-! What an arena has in common with the store that is filled from the same rows: the nodes have the
same records, and positions stand for slots and keys, in the same order. -/
namespace RelMap

open Nested (NodeId Link Store Sighting)

namespace Nested.Store

theorem mem_childKeys {s : Store} {id : NodeId} {slot : Nat} {key : List Key} :
    key ∈ s.childKeys id slot ↔ (⟨id, ⟨slot, key⟩⟩ : Link) ∈ s.links := by
  rw [childKeys, List.mem_map]
  constructor
  · rintro ⟨⟨parent, ⟨c, k⟩⟩, hl, rfl⟩
    obtain ⟨hmem, hmatch⟩ := List.mem_filter.mp hl
    obtain ⟨rfl, rfl⟩ : parent = id ∧ c = slot := by simpa using hmatch
    exact hmem
  · intro hmem
    exact ⟨_, List.mem_filter.mpr ⟨hmem, by simp⟩, rfl⟩

theorem addRoot_eq (s : Store) (id : NodeId) :
    s.addRoot id = { s with roots := Arena.addOnce id s.roots } := by
  unfold addRoot Arena.addOnce
  split_ifs <;> rfl

theorem addLink_eq (s : Store) (l : Link) :
    s.addLink l = { s with links := Arena.addOnce l s.links } := by
  unfold addLink Arena.addOnce
  split_ifs <;> rfl

/-- A link is one more child of one node in one slot. -/
theorem childKeys_addLink (s : Store) (parent id : NodeId) (slot c : Nat) (key : List Key) :
    (s.addLink ⟨parent, ⟨slot, key⟩⟩).childKeys id c =
      if parent = id ∧ slot = c then Arena.addOnce key (s.childKeys id c) else s.childKeys id c := by
  rw [addLink_eq]
  by_cases hmem : (⟨parent, ⟨slot, key⟩⟩ : Link) ∈ s.links
  · rw [Arena.addOnce, if_pos hmem]
    split_ifs with h
    · obtain ⟨rfl, rfl⟩ := h
      rw [Arena.addOnce, if_pos (mem_childKeys.mpr hmem)]
    · rfl
  · rw [Arena.addOnce, if_neg hmem, childKeys, List.filter_append, List.map_append]
    split_ifs with h
    · obtain ⟨rfl, rfl⟩ := h
      rw [Arena.addOnce, if_neg (mt mem_childKeys.mp hmem), List.filter_cons_of_pos (by simp)]
      rfl
    · rw [List.filter_cons_of_neg (by simpa using h)]
      exact List.append_nil _

end Nested.Store

namespace Arena

theorem forall₂_addOnce {α β : Type} [DecidableEq α] [DecidableEq β] {R : α → β → Prop}
    {l : List α} {m : List β} {a : α} {b : β} (h : List.Forall₂ R l m) (hab : R a b)
    (hleft : ∀ {x y z}, R x z → R y z → x = y) (hright : ∀ {x y z}, R x y → R x z → y = z) :
    List.Forall₂ R (addOnce a l) (addOnce b m) := by
  have hmem : a ∈ l ↔ b ∈ m := by
    constructor
    · intro ha
      obtain ⟨c, hc, hac⟩ := exists_right_of_forall₂ h ha
      exact hright hab hac ▸ hc
    · intro hb
      obtain ⟨c, hc, hcb⟩ := exists_left_of_forall₂ h hb
      exact hleft hab hcb ▸ hc
  unfold addOnce
  simp only [hmem]
  split_ifs
  · exact h
  · exact List.rel_append h (.cons hab .nil)

/-- The positions of an arena stand for the slots and keys of a store. -/
structure Represents (a : Arena) (s : Store) : Prop where
  find?_nodes : ∀ id, OrderedMap.find? id s.nodes =
    (a.position? id).bind fun n => a.nodes[n]?.map Node.record
  roots : List.Forall₂ (fun n id => a.position? id = some n) a.roots s.roots
  children : ∀ (id : NodeId) (n : Nat) (node : Node), a.position? id = some n →
    a.nodes[n]? = some node → ∀ slot, List.Forall₂ (fun m key => a.position? ⟨slot, key⟩ = some m)
      (node.childrenIn slot) (s.childKeys id slot)
  parent_known : ∀ l ∈ s.links, ∃ n, a.position? l.parent = some n

/-- An arena in which every slot and key has the position that it has in another one. -/
def Extends (a b : Arena) : Prop :=
  ∀ (id : NodeId) (n : Nat), a.position? id = some n → b.position? id = some n

theorem extends_grown {a : Arena} {id : NodeId} {r : Record} (hnew : a.position? id = none) :
    a.Extends (a.grown id r) := by
  intro other n hother
  rw [position?_grown, if_neg, hother]
  rintro rfl
  simp [hnew] at hother

namespace Represents

variable {p : Plan} {a : Arena} {s : Store} {id above : NodeId} {r : Record} {n m : Nat}
  {node : Node}

theorem empty : Represents {} {} where
  find?_nodes id := rfl
  roots := .nil
  children id n node h := by cases h
  parent_known := by simp

variable (hrep : a.Represents s) (hwf : a.WellFormed p)
include hrep

/-- Nothing has been met under a node that is not there. -/
theorem childKeys_eq_nil (hnone : a.position? id = none) (slot : Nat) :
    s.childKeys id slot = [] := by
  refine List.eq_nil_iff_forall_not_mem.mpr fun key hkey => ?_
  obtain ⟨n, hn⟩ := hrep.parent_known _ (Store.mem_childKeys.mp hkey)
  rw [hnone] at hn
  cases hn

include hwf

/-- A node that is there already is no new node of the store either. -/
theorem addNode (hid : a.position? id = some n) : a.Represents (s.addNode id r) where
  find?_nodes other := by
    obtain ⟨node, hnode, -⟩ := hwf.exists_node hid
    rw [Store.addNode, OrderedMap.find?_insertNew, ← hrep.find?_nodes]
    split_ifs with he
    · subst he
      rw [hrep.find?_nodes, hid, Option.bind_some, hnode]
      rfl
    · rw [Option.or_none]
  roots := hrep.roots
  children := hrep.children
  parent_known := hrep.parent_known

theorem grown (hnew : a.position? id = none) : (a.grown id r).Represents (s.addNode id r) where
  find?_nodes other := by
    rw [Store.addNode, OrderedMap.find?_insertNew, hrep.find?_nodes, position?_grown]
    split_ifs with he
    · subst he
      rw [hnew, Option.bind_some, getElem?_grown_new]
      rfl
    · rw [Option.or_none]
      cases hother : a.position? other with
      | none => rfl
      | some n =>
        obtain ⟨node, hnode, -⟩ := hwf.exists_node hother
        rw [Option.bind_some, Option.bind_some, hnode, getElem?_grown hnode]
  roots := hrep.roots.imp fun n other => extends_grown hnew other n
  children other n node hother hnode slot := by
    rw [position?_grown] at hother
    split_ifs at hother with he
    · subst he
      obtain rfl := Option.some.inj hother
      rw [getElem?_grown_new] at hnode
      obtain rfl := Option.some.inj hnode
      have hnone : (s.addNode id r).childKeys id slot = [] := hrep.childKeys_eq_nil hnew slot
      rw [hnone]
      exact .nil
    · obtain ⟨old, hold, -⟩ := hwf.exists_node hother
      obtain rfl := Option.some.inj ((getElem?_grown hold).symm.trans hnode)
      exact (hrep.children other n old hother hold slot).imp fun m key => extends_grown hnew _ m
  parent_known l hl := by
    obtain ⟨n, hn⟩ := hrep.parent_known l hl
    exact ⟨n, extends_grown hnew _ n hn⟩

theorem addRoot (hid : a.position? id = some n) : (a.addRoot n).Represents (s.addRoot id) := by
  rw [Store.addRoot_eq]
  exact {
    find?_nodes := hrep.find?_nodes
    roots := forall₂_addOnce hrep.roots hid
      (fun hx hy => Option.some.inj (hx.symm.trans hy)) hwf.position?_inj
    children := hrep.children
    parent_known := hrep.parent_known }

theorem linked (habove : a.position? above = some m) (hnode : a.nodes[m]? = some node)
    (hid : a.position? id = some n) :
    (a.linked m node id.slot n).Represents (s.addLink ⟨above, id⟩) where
  find?_nodes other := by
    rw [Store.addLink_eq]
    refine (hrep.find?_nodes other).trans (congrArg (Option.bind _) (funext fun k => ?_))
    exact (map_linked hnode rfl k).symm
  roots := by
    rw [Store.addLink_eq]
    exact hrep.roots
  children other k new hother hnew c := by
    rw [Store.childKeys_addLink]
    split_ifs with hmatch
    · obtain ⟨rfl, rfl⟩ := hmatch
      obtain rfl := Option.some.inj (habove.symm.trans hother)
      obtain rfl := Option.some.inj ((getElem?_linked_self hnode).symm.trans hnew)
      rw [Node.childrenIn_addChild, if_pos rfl]
      refine forall₂_addOnce (hrep.children above m node habove hnode id.slot) hid ?_ ?_
      · intro x y z hx hy
        exact Option.some.inj (hx.symm.trans hy)
      · intro x y z hx hy
        exact (NodeId.mk.inj (hwf.position?_inj hx hy)).2
    · by_cases hk : m = k
      · subst hk
        obtain rfl := hwf.position?_inj habove hother
        obtain rfl := Option.some.inj ((getElem?_linked_self hnode).symm.trans hnew)
        have hslot : id.slot ≠ c := fun he => hmatch ⟨rfl, he⟩
        rw [Node.childrenIn_addChild, if_neg hslot]
        exact hrep.children above m node habove hnode c
      · rw [getElem?_linked_of_ne hk] at hnew
        exact hrep.children other k new hother hnew c
  parent_known l hl := by
    rw [Store.addLink_eq] at hl
    rcases mem_addOnce.mp hl with hold | rfl
    · exact hrep.parent_known l hold
    · exact ⟨m, habove⟩

variable (id) in
/-- The node of a slot and key is there afterwards, and the nodes that were there stay. -/
theorem nodeFor (hid : Node.id? p { slot := id.slot, record := r } = some id) :
    ∃ b n, a.nodeFor id r = (b, n) ∧ b.WellFormed p ∧ b.Represents (s.addNode id r) ∧
      a.Extends b ∧ b.position? id = some n := by
  cases h : a.position? id with
  | some n => exact ⟨a, n, nodeFor_of_some h, hwf, hrep.addNode hwf h, fun _ _ he => he, h⟩
  | none =>
    refine ⟨a.grown id r, a.nodes.length, nodeFor_of_none h, hwf.grown h hid, hrep.grown hwf h,
      extends_grown h, ?_⟩
    rw [position?_grown, if_pos rfl]

end Represents
end Arena
end RelMap
