import RelMap.Proofs.Hydration.Fault
import RelMap.Proofs.Query.Select

/-! The hydration of what a select returns. The slots of its plan stand at the end of the paths
that it includes and hang together as these do, so that every include has its place. -/
namespace RelMap

namespace Plan

/-- The slots of a plan stand at the end of paths of relations: the first one at that of the empty
path, and each of the others below that of its path without the last relation. -/
structure Along (paths : List (List String)) (p : Plan) : Prop where
  paths_eq : p.slots.map Slot.path = ([] :: paths).map Planner.dotted
  nodup : ([] :: paths).Nodup
  dots : ∀ w ∈ paths, ∀ r ∈ w, '.' ∉ r.toList
  parentOf?_zero : p.parentOf? 0 = none
  parent : ∀ (i : Nat) w, paths[i]? = some w → ∃ above, p.parentOf? (i + 1) = some above ∧
    ([] :: paths)[above]? = some w.dropLast

namespace Along

variable {p : Plan} {paths : List (List String)} (h : p.Along paths)
include h

theorem exists_slot {i : Nat} {w : List String} (hw : ([] :: paths)[i]? = some w) :
    ∃ slot, p.slots[i]? = some slot ∧ slot.path = Planner.dotted w := by
  have hpath : (p.slots.map Slot.path)[i]? = some (Planner.dotted w) := by
    rw [h.paths_eq, List.getElem?_map, hw, Option.map_some]
  rw [List.getElem?_map] at hpath
  exact Option.map_eq_some_iff.mp hpath

theorem getElem?_eq_segments {i : Nat} {slot : Slot} (hslot : p.slots[i]? = some slot)
    (hne : slot.path ≠ "") : ([] :: paths)[i]? = some (Planner.segments slot.path) := by
  have hpath : (([] :: paths).map Planner.dotted)[i]? = some slot.path := by
    rw [← h.paths_eq, List.getElem?_map, hslot, Option.map_some]
  rw [List.getElem?_map] at hpath
  obtain ⟨w, hw, hdotted⟩ := Option.map_eq_some_iff.mp hpath
  rw [hw, ← hdotted]
  rcases List.mem_cons.mp (List.mem_of_getElem? hw) with rfl | hmem
  · exact absurd hdotted.symm hne
  · have hnil : w ≠ [] := fun he => (List.nodup_cons.mp h.nodup).1 (he ▸ hmem)
    rw [Planner.segments_dotted hnil (h.dots w hmem)]

theorem check_eq_ok (hshort : ∀ w ∈ paths, w.dropLast = []) : Flat.check p = .ok () := by
  refine Flat.check_eq_ok.mpr fun s hs parent hparent => ?_
  obtain ⟨i, hi⟩ := List.mem_iff_getElem?.mp hs
  have hparentOf : p.parentOf? i = some parent := by
    rw [← parentOf?_eq, hi]
    exact hparent
  cases i with
  | zero => simp [h.parentOf?_zero] at hparentOf
  | succ i =>
    have hlength : p.slots.length = paths.length + 1 := by
      simpa using congrArg List.length h.paths_eq
    have hlt : i < paths.length := by
      have := (List.getElem?_eq_some_iff.mp hi).1
      omega
    obtain ⟨above, habove, hw⟩ := h.parent i paths[i] (List.getElem?_eq_getElem hlt)
    obtain rfl := Option.some.inj (hparentOf.symm.trans habove)
    rw [hshort _ (List.getElem_mem hlt)] at hw
    have hpos : parent < ([] :: paths).length := (List.getElem?_eq_some_iff.mp hw).1
    exact (List.getElem?_inj hpos h.nodup).mp hw

end Along
end Plan

namespace Planner.Covers

variable {g : Registry} {root rootLabel : String} {kind : JoinKind} {seen : List (List String)}
  {planner : Planner} (hc : planner.Covers g root rootLabel kind seen) {p : Plan}
include hc

theorem ends : List.Forall₂ (Join.Ends planner.labelOf) seen.eraseDups
    (planner.joins.filter Join.isHydrated) := by
  obtain ⟨groups, hjoins, hgroups⟩ := hc.joins_eq
  rw [List.filter_congr fun j hj => hc.isHydrated_eq hj, hjoins]
  exact Join.ends_of_reaches hgroups

end Planner.Covers

namespace Query

variable {q : Query} {path : String}

end Query

/-- The place of a path in a plan: the only slot at its end, which hangs from the slot at the end of
the path without its last relation. -/
structure Plan.Places (p : Plan) (path : String) (k : Nat) : Prop where
  found : ∃ slot, p.slots[k]? = some slot ∧ slot.path = path
  only : ∀ j slot, p.slots[j]? = some slot → (slot.path = path ↔ j = k)
  parent : ∃ above slot, p.parentOf? k = some above ∧ p.slots[above]? = some slot ∧
    slot.path = Planner.dotted (Planner.segments path).dropLast

theorem Plan.Along.places {p : Plan} {paths : List (List String)} (h : p.Along paths)
    {path : String} (hmem : Planner.segments path ∈ paths)
    (hempty : "" ∉ Planner.segments path) : ∃ k, p.Places path k := by
  have hne : path ≠ "" := by
    rintro rfl
    exact hempty (by decide)
  obtain ⟨k, hk⟩ := List.mem_iff_getElem?.mp hmem
  have hplace : ([] :: paths)[k + 1]? = some (Planner.segments path) := hk
  obtain ⟨slot, hslot, hpath⟩ := h.exists_slot hplace
  rw [Planner.dotted_segments] at hpath
  obtain ⟨above, habove, hup⟩ := h.parent k _ hk
  obtain ⟨parent, hparent, hparentPath⟩ := h.exists_slot hup
  refine ⟨k + 1, ⟨slot, hslot, hpath⟩, fun j other hother => ⟨fun hsame => ?_, fun hj => ?_⟩,
    above, parent, habove, hparent, hparentPath⟩
  · have hj : ([] :: paths)[j]? = some (Planner.segments path) :=
      hsame ▸ h.getElem?_eq_segments hother (hsame ▸ hne)
    have hlt : j < ([] :: paths).length := (List.getElem?_eq_some_iff.mp hj).1
    exact (List.getElem?_inj hlt h.nodup).mp (hj.trans hplace.symm)
  · rw [hj, hslot] at hother
    rw [← Option.some.inj hother, hpath]

namespace Select

end Select

end RelMap
