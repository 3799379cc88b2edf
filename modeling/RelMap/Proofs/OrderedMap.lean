import RelMap.OrderedMap
import RelMap.Proofs.FirstSeen

/-! Looking up what has been put into an ordered map. -/
namespace RelMap.OrderedMap

variable {κ ν : Type} [DecidableEq κ]

theorem find?_append (key : κ) (l m : List (κ × ν)) :
    find? key (l ++ m) = (find? key l).or (find? key m) := by
  induction l with
  | nil => simp [find?]
  | cons entry l ih =>
    rw [List.cons_append, find?, find?, ih]
    split_ifs <;> simp

theorem find?_insertNew (key k : κ) (value : ν) (entries : List (κ × ν)) :
    find? k (insertNew key value entries) =
      (find? k entries).or (if key = k then some value else none) := by
  unfold insertNew contains
  split_ifs with hc hk hk
  · rw [← hk]
    obtain ⟨old, hold⟩ := Option.isSome_iff_exists.mp hc
    simp [hold]
  · simp
  · rw [find?_append, find?, if_pos hk]
  · rw [find?_append, find?, if_neg hk, find?]

theorem insert_of_not_mem {key : κ} {value : ν} {entries : List (κ × ν)}
    (h : key ∉ keys entries) : insert key value entries = entries ++ [(key, value)] := by
  induction entries with
  | nil => rfl
  | cons entry rest ih =>
    obtain ⟨hne, hrest⟩ := not_or.mp (mt List.mem_cons.mpr h)
    rw [insert, if_neg (Ne.symm hne), ih hrest, List.cons_append]

theorem insert_of_find? {key : κ} {value : ν} {entries : List (κ × ν)}
    (h : find? key entries = some value) : insert key value entries = entries := by
  induction entries with
  | nil => simp [find?] at h
  | cons entry rest ih =>
    rw [find?] at h
    rw [insert]
    split_ifs at h ⊢ with hkey
    · rw [← Option.some.inj h]
    · rw [ih h]

theorem insert_insert (key : κ) (old new : ν) (entries : List (κ × ν)) :
    insert key new (insert key old entries) = insert key new entries := by
  induction entries with
  | nil => simp [insert]
  | cons entry rest ih =>
    rw [insert, insert]
    split_ifs with hkey
    · rw [insert, if_pos hkey]
    · rw [insert, if_neg hkey, ih]

theorem find?_isSome_iff {key : κ} {entries : List (κ × ν)} :
    (find? key entries).isSome = true ↔ key ∈ keys entries := by
  induction entries with
  | nil => simp [find?, keys]
  | cons entry rest ih =>
    rw [find?, keys, List.map_cons, List.mem_cons]
    split_ifs with hk
    · simp [hk]
    · rw [ih]
      exact (or_iff_right (Ne.symm hk)).symm

theorem mem_of_find? {key : κ} {value : ν} {entries : List (κ × ν)}
    (h : find? key entries = some value) : (key, value) ∈ entries := by
  induction entries with
  | nil => simp [find?] at h
  | cons entry rest ih =>
    rw [find?] at h
    split_ifs at h with hk
    · obtain rfl := Option.some.inj h
      exact hk ▸ List.mem_cons_self
    · exact List.mem_cons_of_mem _ (ih h)

theorem find?_eq_some_iff {key : κ} {value : ν} {entries : List (κ × ν)}
    (h : (keys entries).Nodup) : find? key entries = some value ↔ (key, value) ∈ entries := by
  refine ⟨mem_of_find?, fun hmem => ?_⟩
  induction entries with
  | nil => cases hmem
  | cons first rest ih =>
    obtain ⟨hfirst, hrest⟩ := List.nodup_cons.mp h
    rw [find?]
    rcases List.mem_cons.mp hmem with rfl | hmem
    · rw [if_pos rfl]
    · have hne : first.1 ≠ key := by
        rintro rfl
        exact hfirst (List.mem_map_of_mem (f := (·.1)) hmem)
      rw [if_neg hne, ih hrest hmem]

theorem mem_values_of_find? {key : κ} {value : ν} {entries : List (κ × ν)}
    (h : find? key entries = some value) : value ∈ values entries :=
  List.mem_map_of_mem (mem_of_find? h)

/-- Of pairs with the same key the last one counts. -/
theorem find?_insertAll (key : κ) (entries pairs : List (κ × ν)) :
    find? key (insertAll entries pairs) = (find? key pairs.reverse).or (find? key entries) := by
  induction pairs generalizing entries with
  | nil => simp [insertAll, find?]
  | cons pair pairs ih =>
    have hstep : insertAll entries (pair :: pairs) =
        insertAll (insert pair.1 pair.2 entries) pairs := rfl
    rw [hstep, ih, find?_insert, List.reverse_cons, find?_append, find?, find?]
    split_ifs <;> simp

theorem find?_ofList (key : κ) (pairs : List (κ × ν)) :
    find? key (ofList pairs) = find? key pairs.reverse := by
  rw [ofList, find?_insertAll, find?, Option.or_none]

theorem find?_filterMap_key {ι : Type} [DecidableEq ι] {rename : κ → Option ι} {key : κ} {name : ι}
    {entries : List (κ × ν)} (h : ∀ k ∈ keys entries, rename k = some name ↔ k = key) :
    find? name (entries.filterMap fun entry => (rename entry.1).map (·, entry.2)) =
      find? key entries := by
  induction entries with
  | nil => rfl
  | cons entry rest ih =>
    have hrest := ih fun k hk => h k (List.mem_cons_of_mem _ hk)
    have hentry := h entry.1 List.mem_cons_self
    rw [find?, List.filterMap_cons]
    by_cases hk : entry.1 = key
    · rw [hentry.mpr hk, if_pos hk]
      simp [find?]
    · rw [if_neg hk, ← hrest]
      cases hr : rename entry.1 with
      | none => rfl
      | some other =>
        have hne : other ≠ name := fun he => hk (hentry.mp (he ▸ hr))
        simp [find?, hne]

theorem find?_map_pair (f : κ → ν) (key : κ) (names : List κ) :
    find? key (names.map fun k => (k, f k)) = if key ∈ names then some (f key) else none := by
  induction names with
  | nil => rfl
  | cons k names ih =>
    rw [List.map_cons, find?, ih]
    by_cases hk : k = key
    · simp [hk]
    · simp [hk, Ne.symm hk]

/-- Pairs whose values depend on their keys alone leave each key once. -/
theorem ofList_map_pair (f : κ → ν) (names : List κ) :
    ofList (names.map fun k => (k, f k)) = names.eraseDups.map fun k => (k, f k) := by
  induction names using List.reverseRecOn with
  | nil => rfl
  | append_singleton names k ih =>
    have hstep : ofList ((names ++ [k]).map fun k => (k, f k)) =
        insert k (f k) (ofList (names.map fun k => (k, f k))) := by
      simp [ofList, insertAll]
    rw [hstep, ih, eraseDups_concat]
    split_ifs with hk
    · refine insert_of_find? ?_
      rw [find?_map_pair, if_pos (List.mem_eraseDups.mpr hk)]
    · have hkeys : k ∉ keys (names.eraseDups.map fun k => (k, f k)) := by
        simpa [keys] using hk
      rw [insert_of_not_mem hkeys, List.map_append, List.map_singleton]

/-- Setting a key among pairs whose values depend on their keys changes the value at this key. -/
theorem insert_map_pair [BEq κ] [LawfulBEq κ] (f : κ → ν) (names : List κ) (key : κ) (value : ν) :
    insert key value (names.eraseDups.map fun k => (k, f k)) =
      (names ++ [key]).eraseDups.map fun k => (k, Function.update f key value k) := by
  have hother : ∀ l : List κ, key ∉ l →
      l.map (fun k => (k, Function.update f key value k)) = l.map fun k => (k, f k) := by
    intro l hl
    refine List.map_congr_left fun k hk => ?_
    have hne : k ≠ key := fun he => hl (he ▸ hk)
    rw [Function.update_of_ne hne]
  rw [eraseDups_concat]
  split_ifs with hmem
  · have hnodup := nodup_eraseDups names
    have hkey := List.mem_eraseDups.mpr hmem
    generalize names.eraseDups = l at hnodup hkey
    induction l with
    | nil => simp at hkey
    | cons first rest ih =>
      obtain ⟨hfirst, hrest⟩ := List.nodup_cons.mp hnodup
      rw [List.map_cons, List.map_cons, insert]
      by_cases he : first = key
      · subst he
        rw [if_pos rfl, hother rest hfirst, Function.update_self]
      · have hin : key ∈ rest := (List.mem_cons.mp hkey).resolve_left (Ne.symm he)
        rw [if_neg he, ih hrest hin, Function.update_of_ne he]
  · have hl : key ∉ names.eraseDups := mt List.mem_eraseDups.mp hmem
    have hkeys : key ∉ keys (names.eraseDups.map fun k => (k, f k)) := by
      simpa [keys] using hl
    rw [insert_of_not_mem hkeys, List.map_append, hother _ hl, List.map_singleton,
      Function.update_self]

/-- Of pairs whose values depend on their keys alone, the first one with each key is kept. -/
theorem foldl_insertNew_map_pair [BEq κ] [LawfulBEq κ] (f : κ → ν) (names : List κ) :
    (names.map fun k => (k, f k)).foldl (fun kept pair => insertNew pair.1 pair.2 kept) [] =
      names.eraseDups.map fun k => (k, f k) := by
  induction names using List.reverseRecOn with
  | nil => rfl
  | append_singleton names k ih =>
    rw [List.map_append, List.foldl_append, ih, eraseDups_concat]
    have hcontains : contains (names.eraseDups.map fun k => (k, f k)) k = decide (k ∈ names) := by
      rw [contains, find?_map_pair]
      by_cases hk : k ∈ names <;> simp [hk]
    rw [List.map_singleton, List.foldl_cons, List.foldl_nil, insertNew, hcontains]
    by_cases hk : k ∈ names <;> simp [hk]

/-- Of pairs with the same key the first one is kept. -/
theorem keys_foldl_insertNew [BEq κ] [LawfulBEq κ] (pairs : List (κ × ν)) :
    keys (pairs.foldl (fun kept pair => insertNew pair.1 pair.2 kept) []) =
      (keys pairs).eraseDups := by
  induction pairs using List.reverseRecOn with
  | nil => rfl
  | append_singleton pairs pair ih =>
    have hcontains : ∀ entries : List (κ × ν),
        contains entries pair.1 = true ↔ pair.1 ∈ keys entries := fun _ => find?_isSome_iff
    rw [List.foldl_append, List.foldl_cons, List.foldl_nil, insertNew]
    simp only [hcontains]
    rw [ih, show keys (pairs ++ [pair]) = keys pairs ++ [pair.1] by simp [keys], eraseDups_concat]
    simp only [List.mem_eraseDups]
    split_ifs
    · exact ih
    · rw [← ih]
      simp [keys]

theorem mem_of_mem_foldl_insertNew {pairs : List (κ × ν)} {pair : κ × ν}
    (h : pair ∈ pairs.foldl (fun kept pair => insertNew pair.1 pair.2 kept) []) :
    pair ∈ pairs := by
  induction pairs using List.reverseRecOn with
  | nil => cases h
  | append_singleton pairs last ih =>
    rw [List.foldl_append, List.foldl_cons, List.foldl_nil, insertNew] at h
    split_ifs at h
    · exact List.mem_append_left _ (ih h)
    · exact List.mem_append.mpr ((List.mem_append.mp h).imp_left ih)

theorem map_find?_of_nodup {entries : List (κ × ν)} (h : (keys entries).Nodup) (default : ν) :
    (keys entries).map (fun k => (k, (find? k entries).getD default)) = entries := by
  induction entries with
  | nil => rfl
  | cons entry rest ih =>
    obtain ⟨hentry, hrest⟩ := List.nodup_cons.mp h
    have htail : (keys rest).map (fun k => (k, (find? k (entry :: rest)).getD default)) =
        (keys rest).map fun k => (k, (find? k rest).getD default) := by
      refine List.map_congr_left fun k hk => ?_
      have hne : entry.1 ≠ k := by
        rintro rfl
        exact hentry hk
      rw [find?, if_neg hne]
    rw [keys, List.map_cons, List.map_cons, find?, if_pos rfl, Option.getD_some]
    exact congrArg (entry :: ·) (htail.trans (ih hrest))

theorem ofList_of_nodup {pairs : List (κ × ν)} (h : (keys pairs).Nodup) : ofList pairs = pairs := by
  induction pairs using List.reverseRecOn with
  | nil => rfl
  | append_singleton pairs pair ih =>
    rw [keys, List.map_append, List.map_singleton] at h
    obtain ⟨hpairs, -, hdisjoint⟩ := List.nodup_append.mp h
    have hstep : ofList (pairs ++ [pair]) = insert pair.1 pair.2 (ofList pairs) := by
      simp [ofList, insertAll]
    rw [hstep, ih hpairs, insert_of_not_mem fun hmem => hdisjoint _ hmem _ (by simp) rfl]

/-- What is left of pairs where every key keeps its first place and gets its last value. -/
structure LastWins (pairs kept : List (κ × ν)) : Prop where
  keys_eq : keys kept = (keys pairs).eraseDups
  last : ∀ entry ∈ kept, ∃ before after,
    pairs = before ++ entry :: after ∧ entry.1 ∉ keys after

theorem mem_insert_of_nodup {key : κ} {value : ν} {entries : List (κ × ν)} {entry : κ × ν}
    (hnodup : (keys entries).Nodup) (h : entry ∈ insert key value entries) :
    entry = (key, value) ∨ (entry ∈ entries ∧ entry.1 ≠ key) := by
  induction entries with
  | nil => exact .inl (List.mem_singleton.mp h)
  | cons first rest ih =>
    obtain ⟨hfirst, hrest⟩ := List.nodup_cons.mp hnodup
    rw [insert] at h
    split_ifs at h with hkey
    · rcases List.mem_cons.mp h with rfl | hmem
      · exact .inl (hkey ▸ rfl)
      · have hother : entry.1 ≠ first.1 := fun he =>
          hfirst (List.mem_map.mpr ⟨entry, hmem, he⟩)
        exact .inr ⟨List.mem_cons_of_mem _ hmem, hkey ▸ hother⟩
    · rcases List.mem_cons.mp h with rfl | hmem
      · exact .inr ⟨List.mem_cons_self, hkey⟩
      · exact (ih hrest hmem).imp_right fun hother =>
          ⟨List.mem_cons_of_mem _ hother.1, hother.2⟩

theorem ofList_lastWins (pairs : List (κ × ν)) : LastWins pairs (ofList pairs) := by
  induction pairs using List.reverseRecOn with
  | nil => exact ⟨rfl, fun entry hentry => by cases hentry⟩
  | append_singleton pairs pair ih =>
    have hstep : ofList (pairs ++ [pair]) = insert pair.1 pair.2 (ofList pairs) := by
      simp [ofList, insertAll]
    have hmem : pair.1 ∈ keys (ofList pairs) ↔ pair.1 ∈ keys pairs := by
      rw [ih.keys_eq, List.mem_eraseDups]
    have hnodup : (keys (ofList pairs)).Nodup := by
      rw [ih.keys_eq]
      exact nodup_eraseDups _
    rw [hstep]
    constructor
    · rw [show keys (pairs ++ [pair]) = keys pairs ++ [pair.1] by simp [keys], eraseDups_concat]
      split_ifs with hkey
      · rw [keys_insert_of_mem (hmem.mpr hkey), ih.keys_eq]
      · rw [keys_insert_of_not_mem (mt hmem.mp hkey), ih.keys_eq]
    · intro entry hentry
      rcases mem_insert_of_nodup hnodup hentry with rfl | ⟨hold, hne⟩
      · exact ⟨pairs, [], rfl, by simp [keys]⟩
      · obtain ⟨before, after, rfl, hafter⟩ := ih.last entry hold
        refine ⟨before, after ++ [pair], by simp, ?_⟩
        simpa [keys, hne] using hafter

theorem find?_map_key {ι : Type} [DecidableEq ι] {rename : κ → ι} {key : κ}
    {entries : List (κ × ν)} (h : ∀ k ∈ keys entries, rename k = rename key → k = key) :
    find? (rename key) (entries.map fun entry => (rename entry.1, entry.2)) =
      find? key entries := by
  have hsome : ∀ k ∈ keys entries, some (rename k) = some (rename key) ↔ k = key := fun k hk =>
    ⟨fun he => h k hk (Option.some.inj he), fun he => he ▸ rfl⟩
  rw [← find?_filterMap_key hsome]
  simp only [Option.map_some]
  rw [List.filterMap_eq_map']

end RelMap.OrderedMap
