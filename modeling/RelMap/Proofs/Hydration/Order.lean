import RelMap.Proofs.Hydration.Plan

/-! The order in which the slots of a plan are read. Since each slot comes after the one it hangs
from, all are placed the first time through. -/
namespace RelMap.Plan

variable {p : Plan}

/-- A slot is placed behind those before it, among which is the one that it hangs from. -/
theorem place_range {i : Nat} {s : Slot} (hs : p.slots[i]? = some s) :
    place (List.range i) (s, i) = List.range (i + 1) := by
  have hready : s.parent?.all (· ∈ List.range i) = true := by
    cases hparent : s.parent? with
    | none => rfl
    | some parent => simpa using p.parent_lt i s parent hs hparent
  rw [place, if_neg (by simp), if_pos hready, List.range_succ]

theorem placeAll_nil (p : Plan) : p.placeAll [] = List.range p.slots.length := by
  have hprefix : ∀ n ≤ p.slots.length,
      (p.slots.zipIdx.take n).foldl place [] = List.range n := by
    intro n hn
    induction n with
    | zero => rfl
    | succ n ih =>
      have hlt : n < p.slots.zipIdx.length := by rw [List.length_zipIdx]; omega
      rw [List.take_succ_eq_append_getElem hlt, List.foldl_append, ih (by omega),
        List.getElem_zipIdx, List.foldl_cons, List.foldl_nil, Nat.zero_add]
      exact place_range (List.getElem?_eq_getElem _)
  have hall := hprefix p.slots.length (Nat.le_refl _)
  rwa [List.take_of_length_le (Nat.le_of_eq List.length_zipIdx)] at hall

/-- The slots are read in the order in which they were added. -/
theorem order_eq (p : Plan) : p.order = List.range p.slots.length := by
  have hdone : p.orderFrom (List.range p.slots.length) = List.range p.slots.length := by
    rw [orderFrom, if_neg (by simp)]
  rw [order, orderFrom, placeAll_nil, hdone, ite_self]
  split_ifs with hpos
  · rfl
  · rw [List.length_nil, Nat.not_lt, Nat.le_zero] at hpos
    rw [hpos, List.range_zero]

theorem order_nodup (p : Plan) : p.order.Nodup := by
  rw [order_eq]
  exact List.nodup_range

theorem mem_order {i : Nat} : i ∈ p.order ↔ i < p.slots.length := by
  rw [order_eq, List.mem_range]

theorem idxOf_order {i : Nat} (hi : i < p.slots.length) : p.order.idxOf i = i := by
  have hlt : i < (List.range p.slots.length).length := by rwa [List.length_range]
  have hself := List.nodup_range.idxOf_getElem i hlt
  rwa [List.getElem_range, ← order_eq] at hself

/-- A slot is read after the one that it hangs from. -/
theorem idxOf_parent_lt {i parent : Nat} (h : p.parentOf? i = some parent) :
    p.order.idxOf parent < p.order.idxOf i := by
  have hlt := parentOf?_lt h
  have hi := (lt_of_mem_childrenOf (mem_childrenOf.mpr h)).2
  rwa [idxOf_order hi, idxOf_order (Nat.lt_trans hlt hi)]

end RelMap.Plan
