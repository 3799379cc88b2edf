import RelMap.Proofs.Json.Merge

/-! What documents hold behind paths of keys. A document that is laid over another one decides the
paths at which it has anything but an object, and only these: where it has an object without the
next key, what is below shows through. -/
namespace RelMap.Json

open OrderedMap (keys)

/-- What a document holds behind a path of keys. -/
def at? (document : Json) : List String → Option Json
  | [] => some document
  | key :: path => (document.get? key).bind fun value => value.at? path

variable {base upper value : Json} {entries : List (String × Json)} {key : String}

theorem exists_obj_of_get? (h : upper.get? key = some value) :
    ∃ entries, upper = .obj entries ∧ findKey? key entries = some value := by
  cases upper with
  | obj entries => exact ⟨entries, rfl, h⟩
  | _ => cases h

theorem at?_append (document : Json) (path rest : List String) :
    document.at? (path ++ rest) = (document.at? path).bind fun value => value.at? rest := by
  induction path generalizing document with
  | nil => rfl
  | cons key path ih =>
    rw [List.cons_append, at?, at?]
    cases document.get? key with
    | none => rfl
    | some next => exact ih next

theorem eq_obj_of_entries? {document : Json} (h : document.entries? = some entries) :
    document = .obj entries := by
  cases document with
  | obj others => exact congrArg obj (Option.some.inj h)
  | _ => cases h

theorem merge_of_entries?_eq_none (base : Json) (h : upper.entries? = none) :
    merge base upper = upper := by
  cases upper with
  | obj entries => cases h
  | _ => cases base <;> rfl

theorem merge_over_entries?_eq_none (h : base.entries? = none) (upper : Json) :
    merge base upper = upper := by
  cases base with
  | obj entries => cases h
  | _ => cases upper <;> rfl

/-- Whatever lies below an object, each of its keys has its value laid over what is found there. -/
theorem get?_merge_obj (base : Json) (h : (keys entries).Nodup) (key : String) :
    (merge base (.obj entries)).get? key =
      ((findKey? key entries).map (mergeOver (base.get? key))).or (base.get? key) := by
  cases hbase : base.entries? with
  | some below =>
    rw [eq_obj_of_entries? hbase, merge]
    exact findKey?_mergeEntries h key
  | none =>
    have hnothing : base.get? key = none := by
      cases base with
      | obj below => cases hbase
      | _ => rfl
    have hid : mergeOver none = id := rfl
    rw [merge_over_entries?_eq_none hbase, hnothing, Option.or_none, hid, Option.map_id_fun]
    rfl

/-- A value other than an object is still there when its document is laid over another one. -/
theorem at?_merge_of_value {path : List String} (hupper : upper.Ordered)
    (hvalue : upper.at? path = some value) (hplain : value.entries? = none) :
    (merge base upper).at? path = some value := by
  induction path generalizing base upper with
  | nil =>
    have heq : upper = value := Option.some.inj hvalue
    rw [heq, merge_of_entries?_eq_none base hplain]
    rfl
  | cons key path ih =>
    obtain ⟨next, hnext, hrest⟩ := Option.bind_eq_some_iff.mp hvalue
    have hordered : next.Ordered := hupper.get? hnext
    obtain ⟨entries, rfl, hfound⟩ := exists_obj_of_get? hnext
    have hget := get?_merge_obj base hupper.sorted.nodup key
    rw [hfound, Option.map_some, Option.some_or] at hget
    rw [at?, hget, Option.bind_some]
    cases base.get? key with
    | none => exact hrest
    | some below => exact ih hordered hrest

/-- Where the upper document has an object without the next key, the lower one shows through. -/
theorem at?_merge_of_missing {path : List String} (hupper : upper.Ordered)
    (hobject : upper.at? path = some (.obj entries)) (hmissing : key ∉ keys entries)
    (rest : List String) :
    (merge base upper).at? (path ++ key :: rest) = base.at? (path ++ key :: rest) := by
  have hnone : findKey? key entries = none := findKey?_eq_none_iff.mpr hmissing
  induction path generalizing base upper with
  | nil =>
    obtain rfl := Option.some.inj hobject
    have hget := get?_merge_obj base hupper.sorted.nodup key
    rw [hnone, Option.map_none, Option.none_or] at hget
    rw [List.nil_append, at?, at?, hget]
  | cons first path ih =>
    obtain ⟨next, hnext, hrest⟩ := Option.bind_eq_some_iff.mp hobject
    have hordered : next.Ordered := hupper.get? hnext
    obtain ⟨above, rfl, hfound⟩ := exists_obj_of_get? hnext
    have hget := get?_merge_obj base hupper.sorted.nodup first
    rw [hfound, Option.map_some, Option.some_or] at hget
    rw [List.cons_append, at?, at?, hget, Option.bind_some]
    cases base.get? first with
    | none =>
      -- nothing is below, and the upper document ends before the key
      have hend : next.at? (path ++ key :: rest) = none := by
        rw [at?_append, hrest, Option.bind_some, at?]
        exact congrArg (Option.bind · _) hnone
      exact hend
    | some below => exact ih hordered hrest

theorem merge_self {document : Json} (h : document.Ordered) :
    merge document document = document := by
  induction h with
  | @obj entries hsorted _ ih =>
    have hsame : mergeEntries entries entries = entries := by
      apply (hsorted.mergeEntries entries).ext hsorted
      intro key
      rw [findKey?_mergeEntries hsorted.nodup]
      cases hfound : findKey? key entries with
      | none => rfl
      | some value =>
        have hvalue : merge value value = value := ih _ (mem_of_findKey? hfound)
        exact congrArg some hvalue
    rw [merge, hsame]
  | _ => exact merge_of_entries?_eq_none _ rfl

/-- What has been laid over a document changes nothing when it is laid over it again. -/
theorem merge_merge_self (hbase : base.Ordered) (hupper : upper.Ordered) :
    merge (merge base upper) upper = merge base upper := by
  induction hupper generalizing base with
  | @obj entries hsorted hentries ih =>
    cases hobject : base.entries? with
    | none =>
      rw [merge_over_entries?_eq_none hobject]
      exact merge_self (.obj hsorted hentries)
    | some below =>
      obtain rfl := eq_obj_of_entries? hobject
      have hmerged : Sorted (mergeEntries below entries) := hbase.sorted.mergeEntries entries
      have hsame : mergeEntries (mergeEntries below entries) entries =
          mergeEntries below entries := by
        apply (hmerged.mergeEntries entries).ext hmerged
        intro key
        rw [findKey?_mergeEntries hsorted.nodup, findKey?_mergeEntries hsorted.nodup]
        cases hfound : findKey? key entries with
        | none => rfl
        | some value =>
          have hmem : (key, value) ∈ entries := mem_of_findKey? hfound
          cases hbelow : findKey? key below with
          | none => exact congrArg some (merge_self (hentries _ hmem))
          | some old =>
            have hold : old.Ordered := hbase.get? hbelow
            exact congrArg some (ih _ hmem hold)
      rw [merge, merge, hsame]
  | _ => rw [merge_of_entries?_eq_none _ rfl, merge_of_entries?_eq_none _ rfl]

/-- A document that is laid over another one overrides exactly what it says: its values other than
objects are all there, and where it has an object without the next key, what was there before is
there still, if anything was. Laying it over once more changes nothing, nor does laying a document
over itself. -/
theorem merge_overrides (hbase : base.Ordered) (hupper : upper.Ordered) :
    (∀ path value, upper.at? path = some value → value.entries? = none →
      (merge base upper).at? path = some value) ∧
    (∀ path key rest entries, upper.at? path = some (.obj entries) → key ∉ keys entries →
      (merge base upper).at? (path ++ key :: rest) = base.at? (path ++ key :: rest)) ∧
    merge (merge base upper) upper = merge base upper ∧ merge base base = base := by
  constructor
  · intro path value hvalue hplain
    exact at?_merge_of_value hupper hvalue hplain
  constructor
  · intro path key rest entries hobject hmissing
    exact at?_merge_of_missing hupper hobject hmissing rest
  constructor
  · exact merge_merge_self hbase hupper
  · exact merge_self hbase

/-- A database with two options, and a text where the upper document has an object. -/
def lowerOptions : Json :=
  .obj [("cache", .str "none"), ("options", .obj [("busy", .int 1), ("mode", .str "wal")])]

/-- Another mode, and an object over the text. -/
def upperOptions : Json :=
  .obj [("cache", .obj [("size", .int 4)]), ("options", .obj [("mode", .str "off")])]

theorem merge_overrides_options :
    lowerOptions.Ordered ∧ upperOptions.Ordered ∧
    (merge lowerOptions upperOptions).at? ["options", "mode"] = some (.str "off") ∧
    (merge lowerOptions upperOptions).at? ["options", "busy"] = some (.int 1) ∧
    (merge lowerOptions upperOptions).at? ["cache", "size"] = some (.int 4) ∧
    merge (merge lowerOptions upperOptions) upperOptions = merge lowerOptions upperOptions := by
  have hlower : lowerOptions.Ordered := by
    have hoptions : (Json.obj [("busy", .int 1), ("mode", .str "wal")]).Ordered :=
      .obj (by decide) (by simp [Ordered.int, Ordered.str])
    exact .obj (by decide) (by simp [hoptions, Ordered.str])
  have hupper : upperOptions.Ordered := by
    have hcache : (Json.obj [("size", .int 4)]).Ordered := .obj (by decide) (by simp [Ordered.int])
    have hoptions : (Json.obj [("mode", .str "off")]).Ordered :=
      .obj (by decide) (by simp [Ordered.str])
    exact .obj (by decide) (by simp [hcache, hoptions])
  obtain ⟨hvalue, hmissing, hagain, -⟩ := merge_overrides hlower hupper
  have hbusy := hmissing ["options"] "busy" [] [("mode", .str "off")] rfl (by decide)
  exact ⟨hlower, hupper, hvalue ["options", "mode"] _ rfl rfl, hbusy.trans rfl,
    hvalue ["cache", "size"] _ rfl rfl, hagain⟩

end RelMap.Json
