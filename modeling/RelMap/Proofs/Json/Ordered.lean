import Mathlib.Data.List.Nodup
import Mathlib.Data.String.Basic
import RelMap.Json.Basic
import RelMap.Proofs.OrderedMap

/-! Documents whose objects list every key once and in order. -/
namespace RelMap.Json

open OrderedMap (keys)

/-- Entries in the order of their keys, each of which is there once. -/
def Sorted (entries : List (String × Json)) : Prop := (keys entries).Pairwise (· < ·)

instance (entries : List (String × Json)) : Decidable (Sorted entries) :=
  inferInstanceAs (Decidable (List.Pairwise _ _))

theorem sorted_nil : Sorted [] := List.Pairwise.nil

/-- Documents all of whose objects are sorted. -/
inductive Ordered : Json → Prop where
  | null : Ordered .null
  | bool (b : Bool) : Ordered (.bool b)
  | int (n : Int) : Ordered (.int n)
  | float (x : Binary64) : Ordered (.float x)
  | str (s : String) : Ordered (.str s)
  | arr {items : List Json} (h : ∀ item ∈ items, Ordered item) : Ordered (.arr items)
  | obj {entries : List (String × Json)} (hkeys : Sorted entries)
      (h : ∀ entry ∈ entries, Ordered entry.2) : Ordered (.obj entries)

section Entries

variable {entries : List (String × Json)} {key : String} {value : Json}

theorem findKey?_eq_find? (key : String) (entries : List (String × Json)) :
    findKey? key entries = OrderedMap.find? key entries := by
  induction entries with
  | nil => rfl
  | cons entry rest ih => rw [findKey?, OrderedMap.find?, ih]

theorem mem_of_findKey? (h : findKey? key entries = some value) : (key, value) ∈ entries :=
  OrderedMap.mem_of_find? (findKey?_eq_find? key entries ▸ h)

theorem findKey?_eq_none_iff : findKey? key entries = none ↔ key ∉ keys entries := by
  rw [findKey?_eq_find?, ← OrderedMap.find?_isSome_iff, Bool.not_eq_true, Option.isSome_eq_false_iff,
    Option.isNone_iff_eq_none]

theorem findKey?_insertEntry (k key : String) (value : Json) (entries : List (String × Json)) :
    findKey? k (insertEntry key value entries) =
      if key = k then some value else findKey? k entries := by
  induction entries with
  | nil => rfl
  | cons entry rest ih =>
    rw [insertEntry]
    split_ifs with hsame hbefore hkey hkey <;> grind [findKey?]

theorem mem_insertEntry {entry : String × Json} (h : entry ∈ insertEntry key value entries) :
    entry = (key, value) ∨ entry ∈ entries := by
  induction entries with
  | nil => exact .inl (List.mem_singleton.mp h)
  | cons first rest ih =>
    rw [insertEntry] at h
    split_ifs at h <;> grind

theorem Sorted.insertEntry (h : Sorted entries) (key : String) (value : Json) :
    Sorted (insertEntry key value entries) := by
  induction entries with
  | nil => exact List.pairwise_singleton _ _
  | cons first rest ih =>
    obtain ⟨hfirst, hrest⟩ := List.pairwise_cons.mp h
    rw [Json.insertEntry]
    split_ifs with hsame hbefore
    · subst hsame
      exact h
    · refine List.pairwise_cons.mpr ⟨fun k hk => ?_, h⟩
      rcases List.mem_cons.mp hk with rfl | hk
      · exact hbefore
      · exact lt_trans hbefore (hfirst k hk)
    · have hafter : first.1 < key := lt_of_le_of_ne (not_lt.mp hbefore) (Ne.symm hsame)
      refine List.pairwise_cons.mpr ⟨fun k hk => ?_, ih hrest⟩
      obtain ⟨entry, hentry, rfl⟩ := List.mem_map.mp hk
      rcases mem_insertEntry hentry with rfl | hold
      · exact hafter
      · exact hfirst _ (List.mem_map_of_mem hold)

theorem Sorted.nodup (h : Sorted entries) : (keys entries).Nodup := h.imp ne_of_lt

theorem mem_iff_findKey? (h : (keys entries).Nodup) :
    (key, value) ∈ entries ↔ findKey? key entries = some value := by
  rw [findKey?_eq_find?, OrderedMap.find?_eq_some_iff h]

/-- Sorted entries are told by what is found at every key. -/
theorem Sorted.ext {others : List (String × Json)} (h : Sorted entries) (hothers : Sorted others)
    (hfind : ∀ key, findKey? key entries = findKey? key others) : entries = others := by
  have hperm : entries.Perm others := by
    refine (List.perm_ext_iff_of_nodup (h.nodup.of_map _) (hothers.nodup.of_map _)).mpr ?_
    rintro ⟨key, value⟩
    rw [mem_iff_findKey? h.nodup, mem_iff_findKey? hothers.nodup, hfind]
  exact hperm.eq_of_pairwise (fun a b _ _ hab hba => absurd hab (lt_asymm hba))
    (List.pairwise_map.mp h) (List.pairwise_map.mp hothers)

end Entries

/-- What is found in an ordered object is ordered. -/
theorem Ordered.get? {document value : Json} {key : String} (h : document.Ordered)
    (hget : document.get? key = some value) : value.Ordered := by
  cases h with
  | obj hkeys hentries => exact hentries _ (mem_of_findKey? hget)
  | _ => cases hget

theorem Ordered.sorted {entries : List (String × Json)} (h : (Json.obj entries).Ordered) :
    Sorted entries := by
  cases h with
  | obj hkeys _ => exact hkeys

theorem Ordered.insertEntry {entries : List (String × Json)} {value : Json}
    (h : (Json.obj entries).Ordered) (hvalue : value.Ordered) (key : String) :
    (Json.obj (insertEntry key value entries)).Ordered := by
  cases h with
  | obj hkeys hentries =>
    refine .obj (hkeys.insertEntry key value) fun entry hentry => ?_
    rcases mem_insertEntry hentry with rfl | hold
    · exact hvalue
    · exact hentries entry hold

theorem ordered_ofBinary64 (x : Binary64) : (ofBinary64 x).Ordered := by
  unfold ofBinary64
  split
  · exact .float x
  · exact .null

theorem ordered_empty : (Json.obj []).Ordered := .obj sorted_nil fun _ h => by cases h

theorem Ordered.getD_get? {document : Json} (h : document.Ordered) (key : String) :
    ((document.get? key).getD (.obj [])).Ordered := by
  cases hfound : document.get? key with
  | none => exact ordered_empty
  | some value => exact h.get? hfound

theorem ordered_ofEntries {entries : List (String × Json)} (h : ∀ entry ∈ entries, entry.2.Ordered) :
    (ofEntries entries).Ordered :=
  List.foldlRecOn (motive := fun done => (Json.obj done).Ordered) entries _ ordered_empty
    fun _ hdone entry hentry => hdone.insertEntry (h entry hentry) entry.1

end RelMap.Json
