import RelMap.Json.Merge
import RelMap.Proofs.Json.Ordered

/-! What a document holds that has been laid over another. -/
namespace RelMap.Json

open OrderedMap (keys)

variable {base upper : List (String × Json)}

/-- A value laid over what is below it, if anything is. -/
def mergeOver (below : Option Json) (value : Json) : Json := below.elim value (merge · value)

theorem mergeEntries_cons (base : List (String × Json)) (key : String) (value : Json)
    (rest : List (String × Json)) :
    mergeEntries base ((key, value) :: rest) =
      mergeEntries (insertEntry key (mergeOver (findKey? key base) value) base) rest := by
  rw [mergeEntries]
  cases findKey? key base <;> rfl

/-- A key that is in the upper entries has its value there laid over the one below; any other
key has the value below. -/
theorem findKey?_mergeEntries (h : (keys upper).Nodup) (key : String) :
    findKey? key (mergeEntries base upper) =
      ((findKey? key upper).map (mergeOver (findKey? key base))).or (findKey? key base) := by
  induction upper generalizing base with
  | nil => rfl
  | cons entry rest ih =>
    obtain ⟨first, value⟩ := entry
    obtain ⟨hfirst, hrest⟩ := List.nodup_cons.mp h
    rw [mergeEntries_cons, ih hrest, findKey?_insertEntry, findKey?]
    split_ifs with hkey
    · -- the entries that follow have other keys
      subst hkey
      rw [findKey?_eq_none_iff.mpr hfirst]
      rfl
    · rfl

theorem Sorted.mergeEntries (h : Sorted base) (upper : List (String × Json)) :
    Sorted (mergeEntries base upper) := by
  induction upper generalizing base with
  | nil => exact h
  | cons entry rest ih =>
    rw [mergeEntries_cons]
    exact ih (h.insertEntry _ _)

theorem mergeEntries_nil_left (h : Sorted upper) : mergeEntries [] upper = upper := by
  refine (sorted_nil.mergeEntries upper).ext h fun key => ?_
  rw [findKey?_mergeEntries h.nodup]
  exact Option.or_none.trans Option.map_id'

/-- A value that the upper entries have replaces the default below it; else the default stays. -/
theorem findKey?_mergeEntries_getD {α : Type} {encode : α → Json} {default : α}
    {given : Option α} {key : String} (h : (keys upper).Nodup)
    (hbase : findKey? key base = some (encode default))
    (hupper : findKey? key upper = given.map encode)
    (hover : ∀ a, given = some a → merge (encode default) (encode a) = encode a) :
    findKey? key (mergeEntries base upper) = some (encode (given.getD default)) := by
  rw [findKey?_mergeEntries h, hbase, hupper]
  cases given with
  | none => rfl
  | some a => exact congrArg some (hover a rfl)

/-- An object below is merged with what the upper entries have, where nothing counts as an empty
object. -/
theorem findKey?_mergeEntries_obj {below : List (String × Json)} {key : String}
    (h : (keys upper).Nodup) (hbase : findKey? key base = some (.obj below)) :
    findKey? key (mergeEntries base upper) =
      some (merge (.obj below) ((findKey? key upper).getD (.obj []))) := by
  rw [findKey?_mergeEntries h, hbase]
  cases findKey? key upper with
  | none => simp [merge, mergeEntries]
  | some value => rfl

end RelMap.Json
