import RelMap.Hydration.Flat
import RelMap.Proofs.Hydration.View

/-! Plans whose slots all hang from the first one. The scan that keeps related records with the
record of their own rows and the scan with nodes read the same from a result, as long as rows with
the same key for a related slot have the same record for it. -/
namespace RelMap

/-- A plan whose slots after the first one hang from it. -/
structure Plan.Star (p : Plan) : Prop where
  length_pos : 0 < p.slots.length
  parentOf?_zero : p.parentOf? 0 = none
  parentOf?_of_ne_zero : ∀ i < p.slots.length, i ≠ 0 → p.parentOf? i = some 0

namespace Plan

theorem ofJoins_cons {registry : Registry} {model label : String} {joins : List Join} {p : Plan}
    (h : ofJoins registry model label joins = .ok p) :
    ∃ first rest, p.slots = first :: rest ∧ first.branch = none ∧
      ∀ s ∈ rest, ∃ b, s.branch = some b := by
  obtain ⟨first, rest, hslots, -, hbranch, hhangs⟩ := ofJoins_hangsAs h
  refine ⟨first, rest, hslots, hbranch, fun s hs => ?_⟩
  obtain ⟨j, -, b, parent, hb, -⟩ := exists_left_of_forall₂ hhangs hs
  exact ⟨b, hb⟩

/-- Every slot of a plan but the first one hangs from another one. -/
theorem exists_parent_of_ofJoins {registry : Registry} {model label : String} {joins : List Join}
    {p : Plan} (h : ofJoins registry model label joins = .ok p) {i : Nat} {slot : Slot}
    (hslot : p.slots[i + 1]? = some slot) : ∃ parent, slot.parent? = some parent := by
  obtain ⟨first, rest, hslots, -, hrest⟩ := ofJoins_cons h
  rw [hslots, List.getElem?_cons_succ] at hslot
  obtain ⟨b, hb⟩ := hrest slot (List.mem_of_getElem? hslot)
  exact ⟨b.parent, by rw [Slot.parent?, hb, Option.map_some]⟩

end Plan

theorem Flat.check_eq_ok {p : Plan} :
    Flat.check p = .ok () ↔ ∀ s ∈ p.slots, ∀ parent, s.parent? = some parent → parent = 0 := by
  unfold Flat.check
  split
  · next nested hfind =>
    have hmem := List.mem_of_find?_eq_some hfind
    have hany : nested.parent?.any (· ≠ 0) = true := by simpa using List.find?_some hfind
    refine iff_of_false (by simp) fun h => ?_
    cases hparent : nested.parent? with
    | none => simp [hparent] at hany
    | some parent => simp [hparent, h nested hmem parent hparent] at hany
  · next hfind =>
    refine iff_of_true rfl fun s hs parent hparent => ?_
    have := List.find?_eq_none.mp hfind s hs
    simpa [hparent] using this

theorem Plan.star_of_ofJoins {registry : Registry} {model label : String} {joins : List Join}
    {p : Plan} (hplan : ofJoins registry model label joins = .ok p)
    (hcheck : Flat.check p = .ok ()) : p.Star := by
  obtain ⟨first, rest, hslots, hfirst, -⟩ := ofJoins_cons hplan
  refine ⟨by rw [hslots]; exact Nat.succ_pos _, ?_, fun i hi hne => ?_⟩
  · rw [← parentOf?_eq, hslots]
    simp [Slot.parent?, hfirst]
  · obtain ⟨j, rfl⟩ := Nat.exists_eq_succ_of_ne_zero hne
    have hslot := List.getElem?_eq_getElem hi
    obtain ⟨parent, hparent⟩ := exists_parent_of_ofJoins hplan hslot
    rw [parentOf?_of_getElem? hslot, hparent,
      Flat.check_eq_ok.mp hcheck _ (List.getElem_mem hi) _ hparent]

theorem zipIdx_filterMap {α β : Type} (f : α → Nat → Option β) (l : List α) :
    (l.zipIdx.filterMap fun x => f x.1 x.2) =
      (List.range l.length).filterMap fun i => l[i]?.bind fun a => f a i := by
  induction l using List.reverseRecOn with
  | nil => rfl
  | append_singleton l a ih =>
    have hinit : ∀ i ∈ List.range l.length, (l ++ [a])[i]? = l[i]? := fun i hi =>
      List.getElem?_append_left (List.mem_range.mp hi)
    have hcongr : ((List.range l.length).filterMap fun i => (l ++ [a])[i]?.bind fun a => f a i) =
        (List.range l.length).filterMap fun i => l[i]?.bind fun a => f a i :=
      List.filterMap_congr fun i hi => by rw [hinit i hi]
    rw [List.zipIdx_append, List.filterMap_append, ih, List.length_append, List.length_singleton,
      List.range_succ, List.filterMap_append, hcongr]
    simp [List.filterMap_cons]

/-- The slots that hang from the first one, in a plan in which all others do. -/
theorem Plan.Star.childSlots_zero {p : Plan} (hp : p.Star) :
    p.childSlots 0 = p.slots.zipIdx.filterMap fun x => x.1.branch.map fun b => (x.2, x.1, b) := by
  have hzip := zipIdx_filterMap (fun (s : Slot) i => s.branch.map fun b => (i, s, b)) p.slots
  rw [hzip, childSlots, childrenOf, List.filterMap_filter]
  refine List.filterMap_congr fun i hi => ?_
  have hlt := List.mem_range.mp hi
  rw [parentOf?_eq]
  by_cases hzero : i = 0
  · subst hzero
    have hnone : p.slots[0].branch = none := by
      have := hp.parentOf?_zero
      rw [parentOf?, branchOf?, List.getElem?_eq_getElem hlt] at this
      simpa using this
    simp [hp.parentOf?_zero, List.getElem?_eq_getElem hlt, hnone]
  · simp [hp.parentOf?_of_ne_zero i hlt hzero]

theorem Plan.Star.childSlots_of_ne_zero {p : Plan} (hp : p.Star) {i : Nat} (hi : i ≠ 0) :
    p.childSlots i = [] := by
  have hnone : p.childrenOf i = [] := by
    refine List.eq_nil_iff_forall_not_mem.mpr fun j hj => ?_
    have hlt := (lt_of_mem_childrenOf hj).2
    have hparent := mem_childrenOf.mp hj
    by_cases hzero : j = 0
    · rw [hzero, hp.parentOf?_zero] at hparent
      simp at hparent
    · rw [hp.parentOf?_of_ne_zero j hlt hzero] at hparent
      exact hi (Option.some.inj hparent).symm
  rw [childSlots, hnone, List.filterMap_nil]

namespace Flat

open Nested (ownKey? keyIn? rootKeys childKeys firstRecord partsOf)

/-- The related records of a row with their slots and keys. -/
def told (p : Plan) (parts : List Record) : List ((Nat × List Key) × Record) :=
  (parts.tail.zipIdx 1).filterMap fun x => part? p x.2 x.1

/-- The slots and keys of the related records of a row. -/
def toldKeys (p : Plan) (parts : List Record) : List (Nat × List Key) :=
  (List.range parts.length).filterMap fun i =>
    if i = 0 then none else (ownKey? p parts i).map fun key => (i, key)

/-- Keeps the first record of each slot and key. -/
def keep (kept pairs : List ((Nat × List Key) × Record)) : List ((Nat × List Key) × Record) :=
  pairs.foldl (fun kept pair => OrderedMap.insertNew pair.1 pair.2 kept) kept

/-- What the rows with a key in the first slot tell of its record. -/
def entry (p : Plan) (rows : List (List Record)) (key : List Key) : Entry where
  record := firstRecord p rows 0 key
  found := keep [] ((rows.filter fun parts => keyIn? p parts 0 = some key).flatMap (told p))

/-- Rows with the same key for a slot that hangs from another one have the same record for it. -/
def Steady (p : Plan) (rows : List (List Record)) : Prop :=
  ∀ i, i ≠ 0 → ∀ a ∈ rows, ∀ b ∈ rows, ∀ key, ownKey? p a i = some key →
    ownKey? p b i = some key → a[i]? = b[i]?

section
variable {p : Plan} {parts : List Record}

/-- A record without values has no key, so that only records with a key are told. -/
theorem part?_eq (p : Plan) (i : Nat) (r : Record) :
    part? p i r =
      (p.slots[i]?.bind fun s => s.model.recordKey? r).map fun key => ((i, key), r) := by
  unfold part?
  by_cases hnull : r.allNull
  · have hget : ∀ name, r.get name = .null := by
      intro name
      cases hfind : r.get? name with
      | none => rw [Record.get, hfind, Option.getD_none]
      | some value =>
        have hvalue := List.all_eq_true.mp hnull _ (OrderedMap.mem_of_find? hfind)
        rw [Record.get, hfind, Option.getD_some]
        cases value <;> simp [Value.isNull] at hvalue ⊢
    rw [if_pos hnull]
    cases p.slots[i]? with
    | none => rfl
    | some s => rw [Option.bind_some, Nested.recordKey?_of_null hget, Option.map_none]
  · rw [if_neg hnull, Plan.model?]
    cases p.slots[i]? with
    | none => rfl
    | some s =>
      cases hkey : s.model.recordKey? r <;> simp [hkey]

theorem told_eq (hne : parts ≠ []) : told p parts = (List.range parts.length).filterMap fun i =>
    if i = 0 then none
    else (ownKey? p parts i).bind fun key => parts[i]?.map fun r => ((i, key), r) := by
  have hzip := zipIdx_filterMap (fun r i => if i = 0 then none else part? p i r) parts
  have htold : (parts.zipIdx.filterMap fun x => if x.2 = 0 then none else part? p x.2 x.1) =
      told p parts := by
    obtain ⟨first, rest, rfl⟩ := List.exists_cons_of_ne_nil hne
    rw [List.zipIdx_cons, List.filterMap_cons_none (by simp), told, List.tail_cons]
    refine List.filterMap_congr fun x hx => ?_
    have hpos := (List.le_snd_of_mem_zipIdx hx)
    rw [if_neg (by omega)]
  rw [← htold, hzip]
  refine List.filterMap_congr fun i hi => ?_
  have hlt := List.mem_range.mp hi
  rw [ownKey?, List.getElem?_eq_getElem hlt, Option.bind_some]
  by_cases hzero : i = 0
  · rw [if_pos hzero, if_pos hzero]
  · rw [if_neg hzero, if_neg hzero, part?_eq]
    cases p.slots[i]? with
    | none => rfl
    | some s => cases hkey : s.model.recordKey? parts[i] <;> simp [hkey]

/-- A row tells the records that `f` gives, if all its related records with a key are among
them. -/
theorem told_eq_map {f : Nat × List Key → Record} (hne : parts ≠ [])
    (hf : ∀ i, i ≠ 0 → ∀ key, ownKey? p parts i = some key → parts[i]? = some (f (i, key))) :
    told p parts = (toldKeys p parts).map fun k => (k, f k) := by
  rw [told_eq hne, toldKeys, List.map_filterMap]
  refine List.filterMap_congr fun i _ => ?_
  by_cases hzero : i = 0
  · rw [if_pos hzero, if_pos hzero]
    rfl
  · rw [if_neg hzero, if_neg hzero]
    cases hkey : ownKey? p parts i with
    | none => rfl
    | some key => simp [hf i hzero key hkey]

theorem filterMap_toldKeys {i : Nat} (hi : i ≠ 0) (hlt : i < parts.length) :
    ((toldKeys p parts).filter fun k => k.1 = i) =
      (ownKey? p parts i).toList.map fun key => (i, key) := by
  have hother : ∀ j, j ≠ i → ((if j = 0 then none
      else (ownKey? p parts j).map fun key => (j, key)).filter fun k => decide (k.1 = i)) =
      none := by
    intro j hj
    by_cases hzero : j = 0
    · simp [hzero]
    · cases hkey : ownKey? p parts j <;> simp [hj, hzero]
  rw [toldKeys, List.filter_filterMap, Nested.filterMap_range_of_unique hlt hother, if_neg hi]
  cases hkey : ownKey? p parts i <;> simp

end

section
variable {p : Plan} (hp : p.Star) {rows : List (List Record)} {parts : List Record}
include hp

theorem keyIn?_zero : keyIn? p parts 0 = ownKey? p parts 0 :=
  Nested.keyIn?_of_parentOf?_eq_none hp.parentOf?_zero

theorem keyIn?_eq {i : Nat} (hi : i ≠ 0) (hlt : i < p.slots.length) :
    keyIn? p parts i = (keyIn? p parts 0).bind fun _ => ownKey? p parts i :=
  Nested.keyIn?_of_parentOf?_eq_some (hp.parentOf?_of_ne_zero i hlt hi)

theorem exists_cons_of_length (hlen : parts.length = p.slots.length) :
    ∃ first rest, parts = first :: rest ∧ (p.model? 0).bind (·.recordKey? first) =
      keyIn? p parts 0 := by
  have hpos : 0 < parts.length := hlen ▸ hp.length_pos
  obtain ⟨first, rest, rfl⟩ := List.exists_cons_of_length_pos hpos
  refine ⟨first, rest, rfl, ?_⟩
  rw [keyIn?_zero hp, ownKey?, Plan.model?]
  cases p.slots[0]? <;> rfl

theorem addRow_of_eq_none (hlen : parts.length = p.slots.length) (h : keyIn? p parts 0 = none)
    (entries : Entries) : addRow p entries parts = entries := by
  obtain ⟨first, rest, rfl, hkey⟩ := exists_cons_of_length hp hlen
  rw [addRow, hkey, h]

theorem addRow_of_eq_some (hlen : parts.length = p.slots.length) {key : List Key}
    (h : keyIn? p parts 0 = some key) (entries : Entries) :
    ∃ first, parts[0]? = some first ∧ addRow p entries parts =
      OrderedMap.insert key
        { (OrderedMap.find? key entries).getD { record := first } with
          found := keep ((OrderedMap.find? key entries).getD { record := first }).found
            (told p parts) } entries := by
  obtain ⟨first, rest, rfl, hkey⟩ := exists_cons_of_length hp hlen
  refine ⟨first, rfl, ?_⟩
  rw [addRow, hkey, h]
  rfl

omit hp in
theorem entry_concat_of_ne {key : List Key} (h : keyIn? p parts 0 ≠ some key) :
    entry p (rows ++ [parts]) key = entry p rows key := by
  have hfirst : firstRecord p (rows ++ [parts]) 0 key = firstRecord p rows 0 key := by
    rw [firstRecord, firstRecord, List.findSome?_append, List.findSome?_singleton, if_neg h,
      Option.or_none]
  have hrows : (rows ++ [parts]).filter (fun parts => keyIn? p parts 0 = some key) =
      rows.filter fun parts => keyIn? p parts 0 = some key := by
    rw [List.filter_append, List.filter_cons_of_neg (by simpa using h), List.filter_nil,
      List.append_nil]
  rw [entry, entry, hfirst, hrows]

omit hp in
theorem entry_concat_self {key : List Key} {first : Record} (h : keyIn? p parts 0 = some key)
    (hfirst : parts[0]? = some first) : entry p (rows ++ [parts]) key =
      { record := if key ∈ rows.filterMap (fun parts => keyIn? p parts 0) then
          firstRecord p rows 0 key else first
        found := keep (entry p rows key).found (told p parts) } := by
  have hrecord : firstRecord p (rows ++ [parts]) 0 key =
      if key ∈ rows.filterMap (fun parts => keyIn? p parts 0) then firstRecord p rows 0 key
      else first := by
    rw [firstRecord, firstRecord, List.findSome?_append, List.findSome?_singleton, if_pos h, hfirst]
    cases hsome : rows.findSome? fun parts =>
        if keyIn? p parts 0 = some key then parts[0]? else none with
    | none =>
      have hnot : key ∉ rows.filterMap fun parts => keyIn? p parts 0 := by
        intro hmem
        obtain ⟨other, hother, hkey⟩ := List.mem_filterMap.mp hmem
        have hnone := List.findSome?_eq_none_iff.mp hsome other hother
        rw [if_pos hkey] at hnone
        obtain ⟨-, r, -, -, hr, -⟩ := Nested.sighting?_of_nodeIn?_eq_some (p := p)
          (by rw [Nested.nodeIn?, hkey, Option.map_some])
        simp [hnone] at hr
      rw [if_neg hnot]
      rfl
    | some r =>
      obtain ⟨other, hother, hr⟩ := List.exists_of_findSome?_eq_some hsome
      split_ifs at hr with hkey
      have hmem : key ∈ rows.filterMap fun parts => keyIn? p parts 0 :=
        List.mem_filterMap.mpr ⟨other, hother, hkey⟩
      rw [if_pos hmem]
      rfl
  have hrows : (rows ++ [parts]).filter (fun parts => keyIn? p parts 0 = some key) =
      (rows.filter fun parts => keyIn? p parts 0 = some key) ++ [parts] := by
    rw [List.filter_append, List.filter_cons_of_pos (by simpa using h), List.filter_nil]
  rw [entry, hrecord, hrows, List.flatMap_append, List.flatMap_singleton, keep, List.foldl_append]
  rfl

/-- The entries of all rows: one for each key of the first slot, with what its rows tell. -/
theorem foldl_addRow_eq (hlen : ∀ parts ∈ rows, parts.length = p.slots.length) :
    rows.foldl (addRow p) [] = (rootKeys p rows).map fun key => (key, entry p rows key) := by
  induction rows using List.reverseRecOn with
  | nil => rfl
  | append_singleton rows parts ih =>
    have hparts := hlen parts (List.mem_append_right _ (List.mem_singleton_self parts))
    rw [List.foldl_append, ih fun other h => hlen other (List.mem_append_left _ h),
      List.foldl_cons, List.foldl_nil, rootKeys, rootKeys, List.filterMap_append]
    have hlast : [parts].filterMap (fun parts => keyIn? p parts 0) =
        (keyIn? p parts 0).toList := by
      cases hkey : keyIn? p parts 0 <;> simp [hkey]
    cases hkey : keyIn? p parts 0 with
    | none =>
      rw [addRow_of_eq_none hp hparts hkey, hlast, hkey, Option.toList_none, List.append_nil]
      exact List.map_congr_left fun key _ => by rw [entry_concat_of_ne (by simp [hkey])]
    | some key =>
      obtain ⟨first, hfirst, hadd⟩ := addRow_of_eq_some hp hparts hkey
        (((rows.filterMap fun parts => keyIn? p parts 0).eraseDups).map fun key =>
          (key, entry p rows key))
      rw [hadd, OrderedMap.insert_map_pair, OrderedMap.find?_map_pair, hlast, hkey,
        Option.toList_some]
      refine List.map_congr_left fun other _ => ?_
      by_cases hother : other = key
      · subst hother
        rw [Function.update_self, entry_concat_self hkey hfirst]
        simp only [List.mem_eraseDups]
        by_cases hmem : other ∈ rows.filterMap fun parts => keyIn? p parts 0
        · rw [if_pos hmem, if_pos hmem]
          rfl
        · have hnone : rows.filter (fun parts => keyIn? p parts 0 = some other) = [] := by
            refine List.filter_eq_nil_iff.mpr fun parts hparts hsame => hmem ?_
            exact List.mem_filterMap.mpr ⟨parts, hparts, by simpa using hsame⟩
          rw [if_neg hmem, if_neg hmem, Option.getD_none, entry, hnone]
          rfl
      · have hne : keyIn? p parts 0 ≠ some other := by
          rw [hkey]
          exact fun he => hother (Option.some.inj he).symm
        rw [Function.update_of_ne hother, entry_concat_of_ne hne]

/-- Where rows are steady, the record of a related slot is the first one with its key. -/
theorem Steady.firstRecord_eq (hsteady : Steady p rows) (hparts : parts ∈ rows) {i : Nat}
    (hi : i ≠ 0) (hroot : keyIn? p parts 0 ≠ none) {key : List Key}
    (hkey : ownKey? p parts i = some key) : parts[i]? = some (firstRecord p rows i key) := by
  have hlt : i < p.slots.length := by
    obtain ⟨s, hs, -⟩ := Option.bind_eq_some_iff.mp hkey
    exact (List.getElem?_eq_some_iff.mp hs).1
  obtain ⟨root, hroot⟩ := Option.ne_none_iff_exists'.mp hroot
  have hin : keyIn? p parts i = some key := by
    rw [keyIn?_eq hp hi hlt, hroot, Option.bind_some, hkey]
  obtain ⟨s, -, hr⟩ := Option.bind_eq_some_iff.mp hkey
  obtain ⟨r, hr, -⟩ := Option.bind_eq_some_iff.mp hr
  cases hfirst : rows.findSome? fun parts =>
      if keyIn? p parts i = some key then parts[i]? else none with
  | none =>
    have hnone := List.findSome?_eq_none_iff.mp hfirst parts hparts
    rw [if_pos hin, hr] at hnone
    simp at hnone
  | some first =>
    obtain ⟨other, hother, hrecord⟩ := List.exists_of_findSome?_eq_some hfirst
    split_ifs at hrecord with hsame
    have hown : ownKey? p other i = some key := by
      rw [keyIn?_eq hp hi hlt] at hsame
      obtain ⟨-, -, hown⟩ := Option.bind_eq_some_iff.mp hsame
      exact hown
    rw [hsteady i hi parts hparts other hother key hkey hown, hrecord, firstRecord, hfirst,
      Option.getD_some]

/-- What is kept for a slot is what the rows show of the records under the key of the first
slot. -/
theorem Steady.found_eq (hsteady : Steady p rows)
    (hlen : ∀ parts ∈ rows, parts.length = p.slots.length) (key : List Key) {i : Nat} (hi : i ≠ 0)
    (hlt : i < p.slots.length) :
    ((entry p rows key).found.filter fun f => f.1.1 = i).map (·.2) =
      (childKeys p rows 0 key i).map (firstRecord p rows i) := by
  let own := rows.filter fun parts => keyIn? p parts 0 = some key
  have hown : ∀ parts ∈ own, parts ∈ rows ∧ keyIn? p parts 0 = some key := by
    intro parts hparts
    obtain ⟨hmem, hkey⟩ := List.mem_filter.mp hparts
    exact ⟨hmem, of_decide_eq_true hkey⟩
  have htold : own.flatMap (told p) =
      (own.flatMap (toldKeys p)).map fun k => (k, firstRecord p rows k.1 k.2) := by
    rw [List.map_flatMap]
    refine List.flatMap_congr fun parts hparts => ?_
    obtain ⟨hmem, hkey⟩ := hown parts hparts
    have hpos : 0 < parts.length := hlen parts hmem ▸ hp.length_pos
    exact told_eq_map (List.ne_nil_of_length_pos hpos) fun j hj k hk =>
      hsteady.firstRecord_eq hp hmem hj (by simp [hkey]) hk
  have hfound : (entry p rows key).found =
      (own.flatMap (toldKeys p)).eraseDups.map fun k => (k, firstRecord p rows k.1 k.2) := by
    change keep [] (own.flatMap (told p)) = _
    rw [htold, keep, OrderedMap.foldl_insertNew_map_pair]
  have hslot : (own.flatMap (toldKeys p)).filter (fun k => k.1 = i) =
      (own.filterMap fun parts => ownKey? p parts i).map fun k => (i, k) := by
    rw [List.filter_flatMap, List.filterMap_eq_flatMap_toList, List.map_flatMap]
    refine List.flatMap_congr fun parts hparts => filterMap_toldKeys hi ?_
    rw [hlen parts (hown parts hparts).1]
    exact hlt
  have hkeys : (own.filterMap fun parts => ownKey? p parts i) =
      rows.filterMap fun parts =>
        if keyIn? p parts 0 = some key then keyIn? p parts i else none := by
    rw [List.filterMap_filter]
    refine List.filterMap_congr fun parts _ => ?_
    by_cases hkey : keyIn? p parts 0 = some key
    · rw [if_pos (by simpa using hkey), if_pos hkey, keyIn?_eq hp hi hlt, hkey, Option.bind_some]
    · rw [if_neg (by simpa using hkey), if_neg hkey]
  have hinj : ∀ l : List (List Key), (l.map fun k => (i, k)).eraseDups =
      l.eraseDups.map fun k => (i, k) := fun l =>
    (map_eraseDups fun a _ b _ hab => (Prod.mk.inj hab).2).symm
  calc ((entry p rows key).found.filter fun f => f.1.1 = i).map (·.2)
      = ((own.flatMap (toldKeys p)).eraseDups.filter fun k => k.1 = i).map
          fun k => firstRecord p rows k.1 k.2 := by
        rw [hfound, List.filter_map, List.map_map]
        rfl
    _ = (own.filterMap fun parts => ownKey? p parts i).eraseDups.map (firstRecord p rows i) := by
        rw [filter_eraseDups, hslot, hinj, List.map_map]
        rfl
    _ = (childKeys p rows 0 key i).map (firstRecord p rows i) := by rw [hkeys, childKeys]

theorem Entry.finish_eq (keep : Nat → Slot → Related → Except Error Related) (e : Entry) :
    e.finish p keep = (p.childSlots 0).foldlM (fun r x => do
      let related ← keep x.1 x.2.1 (e.related x.2.1 x.1)
      return r.setRelation x.2.2.relation related) e.record := by
  rw [Entry.finish, hp.childSlots_zero, List.foldlM_filterMap]
  congr 1
  funext r x
  cases hbranch : x.1.branch with
  | none =>
    simp only [hbranch, Option.map_none]
    rfl
  | some b => simp [hbranch]

/-- A node of the first slot is materialized as the entry with its key is finished. -/
theorem Steady.materialize_eq (hsteady : Steady p rows)
    (hlen : ∀ parts ∈ rows, parts.length = p.slots.length)
    (keep : Nat → Slot → Related → Except Error Related) {s : Nested.Store}
    (hs : s.Holds (rows.flatMap (Nested.sightings p))) (key : List Key) :
    Nested.materialize p keep s ⟨0, key⟩ = (entry p rows key).finish p keep := by
  have hleaf : ∀ i, i ≠ 0 → i < p.slots.length → ∀ k,
      Nested.materialize p keep s ⟨i, k⟩ = .ok (firstRecord p rows i k) := by
    intro i hi hlt k
    rw [Nested.materialize_eq, hp.childSlots_of_ne_zero hi, hs.record_eq hlt]
    rfl
  rw [Nested.materialize_eq, Entry.finish_eq hp, hs.record_eq hp.length_pos]
  have hrelated : ∀ x ∈ p.childSlots 0, ((s.childKeys ⟨0, key⟩ x.1).mapM fun k =>
      Nested.materialize p keep s ⟨x.1, k⟩) =
        .ok ((childKeys p rows 0 key x.1).map (firstRecord p rows x.1)) := by
    intro x hx
    obtain ⟨hchild, -, -⟩ := Plan.of_mem_childSlots hx
    obtain ⟨hpos, hlt⟩ := Plan.lt_of_mem_childrenOf hchild
    rw [hs.childKeys_eq (Plan.mem_childrenOf.mp hchild),
      mapM_congr_of_mem fun k _ => hleaf x.1 (by omega) hlt k, mapM_ok]
  refine foldlM_congr_of_mem fun r x hx => ?_
  obtain ⟨hpos, hlt⟩ := Plan.lt_of_mem_childrenOf (Plan.of_mem_childSlots hx).1
  have hentry : (entry p rows key).related x.2.1 x.1 =
      Nested.related x.2.1 ((childKeys p rows 0 key x.1).map (firstRecord p rows x.1)) := by
    rw [Entry.related, hsteady.found_eq hp hlen key (by omega) hlt]
    rfl
  rw [hrelated x hx, hentry]
  rfl

end

/-- The two scans agree whatever is kept of the related records. -/
theorem scanKeeping_eq_nested {registry : Registry} {model label : String} {joins : List Join}
    {p : Plan} (keep : Nat → Slot → Related → Except Error Related) {rows : RowSet}
    (hplan : Plan.ofJoins registry model label joins = .ok p) (hcheck : check p = .ok ())
    (hsteady : (∀ values ∈ rows.rows, values.length = rows.columns.length) →
      Steady p (partsOf p rows)) :
    scanKeeping p keep rows = Nested.scanKeeping p keep rows := by
  have hp := Plan.star_of_ofJoins hplan hcheck
  by_cases hwidth : ∀ values ∈ rows.rows, values.length = rows.columns.length
  · have hlen : ∀ parts ∈ partsOf p rows, parts.length = p.slots.length := by
      intro parts hparts
      obtain ⟨values, -, rfl⟩ := List.mem_map.mp hparts
      simp [Layout.split, Layout.ofColumns]
    have hs := Nested.Store.holds_rows hlen
    have hroot : ∀ i < p.slots.length, p.parentOf? i = none ↔ i = 0 := by
      intro i hi
      by_cases hzero : i = 0
      · simp [hzero, hp.parentOf?_zero]
      · simp [hzero, hp.parentOf?_of_ne_zero i hi hzero]
    simp only [scanKeeping, Nested.scanKeeping, hcheck, bind, Except.bind]
    rw [RowSet.mapRows_ok hwidth, ← partsOf]
    dsimp only
    rw [foldl_addRow_eq hp hlen, hs.roots_eq_rootKeys hp.length_pos hroot, List.mapM_map,
      List.mapM_map]
    exact mapM_congr_of_mem fun key _ =>
      ((hsteady hwidth).materialize_eq hp hlen keep hs key).symm
  · obtain ⟨e, he⟩ := RowSet.mapRows_error hwidth (Layout.ofColumns p rows.columns).split
    simp only [scanKeeping, Nested.scanKeeping, hcheck, bind, Except.bind]
    rw [he]

/-- A scan that keeps related records with the record of their own rows returns what a scan with
nodes returns, or fails as that fails. -/
theorem scan_eq_nested_scan [Regex.Engine] {registry : Registry} {model label : String}
    {joins : List Join} {p : Plan} (includes : Includes) {rows : RowSet}
    (hplan : Plan.ofJoins registry model label joins = .ok p) (hcheck : check p = .ok ())
    (hsteady : (∀ values ∈ rows.rows, values.length = rows.columns.length) →
      Steady p (partsOf p rows)) :
    scan p includes rows = Nested.scan p includes rows :=
  scanKeeping_eq_nested (fun _ s => includes.apply s.path s.model) hplan hcheck hsteady

def postRecord (id : Int) : Record := .ofFields [("id", .int id), ("author", .int 1)]

/-- A post that is met under two users, and another one. -/
def sharedRows : RowSet where
  columns := ["u_id", "p_id", "p_user_id"]
  rows := [[.int 1, .int 10, .int 1], [.int 2, .int 10, .int 1], [.int 2, .int 11, .int 1]]

theorem steady_sharedRows {p : Plan}
    (hlayout : Layout.ofColumns p sharedRows.columns =
      ⟨[(0, "id"), (1, "id"), (1, "author")], 2⟩) (hlength : p.slots.length = 2)
    (hkeys : [10, 11].map (fun id => p.slots[1]?.bind fun s =>
      s.model.recordKey? (postRecord id)) = [some [.int 10], some [.int 11]]) :
    Steady p (partsOf p sharedRows) := by
  obtain ⟨hten, heleven⟩ : (p.slots[1]?.bind fun s => s.model.recordKey? (postRecord 10)) =
      some [.int 10] ∧ (p.slots[1]?.bind fun s => s.model.recordKey? (postRecord 11)) =
      some [.int 11] := by
    simpa using hkeys
  have hpost : ∀ parts ∈ partsOf p sharedRows, ∃ id, parts[1]? = some (postRecord id) ∧
      ownKey? p parts 1 = some [.int id] := by
    intro parts hparts
    rw [partsOf, hlayout] at hparts
    simp only [sharedRows, List.map_cons, List.map_nil, List.mem_cons, List.not_mem_nil,
      or_false] at hparts
    rcases hparts with rfl | rfl | rfl
    · exact ⟨10, rfl, hten⟩
    · exact ⟨10, rfl, hten⟩
    · exact ⟨11, rfl, heleven⟩
  intro i hi a ha b hb key hka hkb
  have hlt : i < 2 := by
    obtain ⟨s, hs, -⟩ := Option.bind_eq_some_iff.mp hka
    exact hlength ▸ (List.getElem?_eq_some_iff.mp hs).1
  obtain rfl : i = 1 := by omega
  obtain ⟨m, ham, hm⟩ := hpost a ha
  obtain ⟨n, hbn, hn⟩ := hpost b hb
  rw [← hkb, hn] at hka
  have hmn : m = n := by simpa using hm.symm.trans hka
  rw [ham, hbn, hmn]

theorem scan_eq_nested_scan_sharedRows : ∃ p, Plan.ofJoins .blog "User" "u"
      ((Planner.start .blog "u").run [.path "User" "u" .left ["posts"]]).joins = .ok p ∧
    check p = .ok () ∧ Steady p (partsOf p sharedRows) ∧
    scan p Nested.postIncludes sharedRows = Nested.scan p Nested.postIncludes sharedRows := by
  have hplanned : ((Plan.ofJoins .blog "User" "u" ((Planner.start .blog "u").run
      [.path "User" "u" .left ["posts"]]).joins).toOption.any fun p =>
      (check p).toOption = some () ∧ p.slots.length = 2 ∧
      (Layout.ofColumns p sharedRows.columns).targets = [(0, "id"), (1, "id"), (1, "author")] ∧
      [10, 11].map (fun id => p.slots[1]?.bind fun s => s.model.recordKey? (postRecord id)) =
        [some [.int 10], some [.int 11]]) = true := by
    decide +kernel
  cases hplan : Plan.ofJoins .blog "User" "u" ((Planner.start .blog "u").run
      [.path "User" "u" .left ["posts"]]).joins with
  | error e => simp [hplan, Except.toOption] at hplanned
  | ok p =>
    rw [hplan] at hplanned
    obtain ⟨hcheck, hlength, htargets, hkeys⟩ := of_decide_eq_true hplanned
    have hok : check p = .ok () := by
      cases h : check p with
      | error e => simp [h, Except.toOption] at hcheck
      | ok u => rfl
    have hlayout : Layout.ofColumns p sharedRows.columns =
        ⟨[(0, "id"), (1, "id"), (1, "author")], 2⟩ := by
      rw [← htargets, ← hlength]
      rfl
    have hsteady := steady_sharedRows hlayout hlength hkeys
    exact ⟨p, rfl, hok, hsteady,
      scan_eq_nested_scan Nested.postIncludes hplan hok fun _ => hsteady⟩

end Flat

end RelMap
