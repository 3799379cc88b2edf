import RelMap.Proofs.Hydration.Fault
import RelMap.Proofs.Value.Key

/-! Records and their key values. Where keys identify the key values of a result, both scans return
one record for each of them, and fold no rows that differ in them. -/
namespace RelMap

namespace Model

/-- The fields that identify a record. -/
def keyNames (m : Model) : List String :=
  match m.primaryKeyFields with
  | [] => [m.primaryKeyName]
  | fields => fields.map Field.name

def keyValues (m : Model) (r : Record) : List Value := m.keyNames.map r.get

theorem recordKey?_eq (m : Model) (r : Record) :
    m.recordKey? r = (m.keyValues r).mapM Value.key? := by
  unfold recordKey? keyValues keyNames
  cases m.primaryKeyFields with
  | nil => cases h : (r.get m.primaryKeyName).key? <;> simp [h]
  | cons f rest => simp [List.mapM_map, Function.comp_def]

variable {m : Model} {r r' : Record}

theorem keyValues_congr (h : r.fields = r'.fields) : m.keyValues r = m.keyValues r' := by
  unfold keyValues Record.get Record.get?
  rw [h]

/-- The key values of two records that can be told by their keys. -/
def ToldByKey (m : Model) (r r' : Record) : Prop := ∀ name ∈ m.keyNames,
  (r.get name).Identified ∧ (r'.get name).Identified ∧ (r.get name).Alike (r'.get name)

theorem keyValues_eq (htold : m.ToldByKey r r') {key : List Key} (hr : m.recordKey? r = some key)
    (hr' : m.recordKey? r' = some key) : m.keyValues r = m.keyValues r' := by
  rw [recordKey?_eq, keyValues] at hr hr'
  unfold ToldByKey at htold
  unfold keyValues
  generalize m.keyNames = names at *
  induction names generalizing key with
  | nil => rfl
  | cons name names ih =>
    rw [List.map_cons, List.mapM_cons] at hr hr'
    obtain ⟨k, hk, hrest⟩ := Option.bind_eq_some_iff.mp hr
    obtain ⟨ks, hks, hkey⟩ := Option.bind_eq_some_iff.mp hrest
    obtain ⟨k', hk', hrest'⟩ := Option.bind_eq_some_iff.mp hr'
    obtain ⟨ks', hks', hkey'⟩ := Option.bind_eq_some_iff.mp hrest'
    obtain rfl := Option.some.inj hkey
    obtain ⟨rfl, rfl⟩ := List.cons.inj (Option.some.inj hkey')
    obtain ⟨hidentified, hidentified', halike⟩ := htold name List.mem_cons_self
    rw [List.map_cons, List.map_cons,
      Value.eq_of_key?_eq hidentified hidentified' halike (hk.trans hk'.symm),
      ih (fun n hn => htold n (List.mem_cons_of_mem name hn)) hks hks']

end Model

/-- Records that stand for others: they have the same key values, each once. -/
structure OnePerKey (m : Model) (records others : List Record) : Prop where
  nodup : (records.map m.keyValues).Nodup
  mem_iff : ∀ values, values ∈ records.map m.keyValues ↔ values ∈ others.map m.keyValues

/-- Records for distinct keys, each with the key values of a record that has the key. -/
theorem OnePerKey.of_keys {m : Model} {records others : List Record} {keys : List (List Key)}
    {R : List Key → Record → Prop} (htold : ∀ r ∈ others, ∀ r' ∈ others, m.ToldByKey r r')
    (hnodup : keys.Nodup) (hkeys : ∀ r ∈ others, ∃ key ∈ keys, m.recordKey? r = some key)
    (hR : ∀ key ∈ keys, ∀ r, R key r → ∃ other ∈ others, m.recordKey? other = some key ∧
      m.keyValues r = m.keyValues other) (hrecords : List.Forall₂ R keys records) :
    OnePerKey m records others := by
  refine ⟨?_, fun values => ⟨fun hvalues => ?_, fun hvalues => ?_⟩⟩
  · -- The keys can be read off the key values, so these are as distinct as the keys.
    have hread : (records.map m.keyValues).map (·.mapM Value.key?) = keys.map some := by
      rw [List.map_map]
      refine (map_eq_of_forall₂ hrecords fun key hmem r hr => ?_).symm
      obtain ⟨other, -, hkey, hvalues⟩ := hR key hmem r hr
      rw [Function.comp_apply, hvalues, ← m.recordKey?_eq, hkey]
    refine List.Nodup.of_map (·.mapM Value.key?) ?_
    rw [hread]
    exact hnodup.map (Option.some_injective _)
  · obtain ⟨r, hr, rfl⟩ := List.mem_map.mp hvalues
    obtain ⟨key, hmem, hrel⟩ := exists_left_of_forall₂ hrecords hr
    obtain ⟨other, hother, -, hsame⟩ := hR key hmem r hrel
    rw [hsame]
    exact List.mem_map_of_mem hother
  · obtain ⟨r', hr', rfl⟩ := List.mem_map.mp hvalues
    obtain ⟨key, hmem, hkey'⟩ := hkeys r' hr'
    obtain ⟨r, hr, hrel⟩ := exists_right_of_forall₂ hrecords hmem
    obtain ⟨other, hother, hkey, hsame⟩ := hR key hmem r hrel
    rw [← Model.keyValues_eq (htold other hother r' hr') hkey hkey', ← hsame]
    exact List.mem_map_of_mem hr

/-- Rows whose key values in every slot can be told by their keys. -/
def KeysTold (p : Plan) (rows : List (List Record)) : Prop :=
  ∀ (i : Nat) (s : Slot), p.slots[i]? = some s → ∀ a ∈ rows, ∀ b ∈ rows, ∀ r r' : Record,
    a[i]? = some r → b[i]? = some r' → s.model.ToldByKey r r'

open Nested (ownKey? keyIn? rootKeys childKeys firstRecord partsOf view)

/-- The records of a slot in the rows in which it is present. -/
def present (p : Plan) (rows : List (List Record)) (i : Nat) : List Record :=
  rows.filterMap fun parts => if (keyIn? p parts i).isSome then parts[i]? else none

/-- The rows in which a slot is present with a key. -/
def rowsWith (p : Plan) (rows : List (List Record)) (slot : Nat) (key : List Key) :
    List (List Record) :=
  rows.filter fun parts => keyIn? p parts slot = some key

/-- The keys of a slot in the order in which they are first met. -/
def keysIn (p : Plan) (rows : List (List Record)) (i : Nat) : List (List Key) :=
  (rows.filterMap fun parts => keyIn? p parts i).eraseDups

theorem childKeys_eq_keysIn (p : Plan) (rows : List (List Record)) (slot : Nat) (key : List Key)
    (child : Nat) :
    childKeys p rows slot key child = keysIn p (rowsWith p rows slot key) child := by
  rw [childKeys, keysIn, rowsWith, List.filterMap_filter]
  simp only [decide_eq_true_eq]

section
variable {p : Plan} {rows own : List (List Record)} {i : Nat} {s : Slot}

theorem recordKey?_of_keyIn? (hs : p.slots[i]? = some s) {parts : List Record} {key : List Key}
    (h : keyIn? p parts i = some key) :
    ∃ r, parts[i]? = some r ∧ s.model.recordKey? r = some key := by
  unfold keyIn? at h
  split_ifs at h
  rw [ownKey?, hs, Option.bind_some] at h
  exact Option.bind_eq_some_iff.mp h

theorem mem_present (hs : p.slots[i]? = some s) {r : Record} : r ∈ present p rows i ↔
    ∃ parts ∈ rows, ∃ key, keyIn? p parts i = some key ∧ parts[i]? = some r ∧
      s.model.recordKey? r = some key := by
  rw [present, List.mem_filterMap]
  refine exists_congr fun parts => and_congr_right fun _ => ⟨fun h => ?_, ?_⟩
  · split_ifs at h with hsome
    obtain ⟨key, hkey⟩ := Option.isSome_iff_exists.mp hsome
    obtain ⟨r', hr', hrecord⟩ := recordKey?_of_keyIn? hs hkey
    obtain rfl : r' = r := Option.some.inj (hr'.symm.trans h)
    exact ⟨key, hkey, h, hrecord⟩
  · rintro ⟨key, hkey, hr, -⟩
    rw [hkey, Option.isSome_some, if_pos rfl, hr]

theorem toldByKey_of_present (hs : p.slots[i]? = some s) (htold : KeysTold p rows)
    (hown : ∀ parts ∈ own, parts ∈ rows) :
    ∀ r ∈ present p own i, ∀ r' ∈ present p own i, s.model.ToldByKey r r' := by
  intro r hr r' hr'
  obtain ⟨parts, hparts, key, -, hget, -⟩ := (mem_present hs).mp hr
  obtain ⟨parts', hparts', key', -, hget', -⟩ := (mem_present hs).mp hr'
  exact htold i s hs parts (hown parts hparts) parts' (hown parts' hparts') r r' hget hget'

theorem mem_keysIn {key : List Key} :
    key ∈ keysIn p rows i ↔ ∃ parts ∈ rows, keyIn? p parts i = some key := by
  rw [keysIn, List.mem_eraseDups, List.mem_filterMap]

/-- The first record for a key is one of a row with the key. -/
theorem exists_firstRecord {key : List Key} {parts : List Record} (hs : p.slots[i]? = some s)
    (hparts : parts ∈ rows) (hkey : keyIn? p parts i = some key) :
    ∃ first ∈ rows, keyIn? p first i = some key ∧
      first[i]? = some (firstRecord p rows i key) := by
  obtain ⟨r, hr, -⟩ := recordKey?_of_keyIn? hs hkey
  rw [firstRecord]
  cases hfirst : rows.findSome? fun parts =>
      if keyIn? p parts i = some key then parts[i]? else none with
  | none =>
    have hnone := List.findSome?_eq_none_iff.mp hfirst parts hparts
    rw [if_pos hkey, hr] at hnone
    cases hnone
  | some record =>
    obtain ⟨first, hmem, hrecord⟩ := List.exists_of_findSome?_eq_some hfirst
    split_ifs at hrecord with hsame
    exact ⟨first, hmem, hsame, hrecord⟩

/-- Records with the fields of the first one for each key stand for those of the rows. -/
theorem onePerKey_of_fields (hs : p.slots[i]? = some s) (htold : KeysTold p rows)
    (hown : ∀ parts ∈ own, parts ∈ rows) {records : List Record}
    (hrecords : List.Forall₂ (fun key r => r.fields = (firstRecord p rows i key).fields)
      (keysIn p own i) records) : OnePerKey s.model records (present p own i) := by
  refine .of_keys (toldByKey_of_present hs htold hown) (nodup_eraseDups _) (fun r hr => ?_)
    (fun key hmem r hr => ?_) hrecords
  · obtain ⟨parts, hparts, key, hkey, -, hrecord⟩ := (mem_present hs).mp hr
    exact ⟨key, mem_keysIn.mpr ⟨parts, hparts, hkey⟩, hrecord⟩
  · obtain ⟨parts, hparts, hkey⟩ := mem_keysIn.mp hmem
    obtain ⟨other, hother, hrecord⟩ := recordKey?_of_keyIn? hs hkey
    obtain ⟨first, hfirst, hfirstKey, hget⟩ := exists_firstRecord hs (hown parts hparts) hkey
    obtain ⟨r₀, hr₀, hrecord₀⟩ := recordKey?_of_keyIn? hs hfirstKey
    obtain rfl := Option.some.inj (hget.symm.trans hr₀)
    refine ⟨other, (mem_present hs).mpr ⟨parts, hparts, key, hkey, hother, hrecord⟩, hrecord, ?_⟩
    rw [Model.keyValues_congr hr]
    exact Model.keyValues_eq
      (htold i s hs first hfirst parts (hown parts hparts) _ other hget hother) hrecord₀ hrecord

theorem Nested.fields_of_view [Regex.Engine] {includes : Includes} {key : List Key} {r : Record}
    (h : view p includes rows i key = .ok r) : r.fields = (firstRecord p rows i key).fields := by
  rw [Nested.view_eq] at h
  obtain ⟨relations, -, hr⟩ := bind_eq_ok.mp h
  rw [← pure_eq_ok.mp hr]

theorem Nested.onePerKey_of_view [Regex.Engine] (hs : p.slots[i]? = some s)
    (htold : KeysTold p rows) (hown : ∀ parts ∈ own, parts ∈ rows) {includes : Includes}
    {records : List Record} (h : (keysIn p own i).mapM (view p includes rows i) = .ok records) :
    OnePerKey s.model records (present p own i) :=
  onePerKey_of_fields hs htold hown
    ((forall₂_of_mapM_eq_ok h).imp fun _ _ => Nested.fields_of_view)

theorem Flat.fields_of_finish {keep : Nat → Slot → Related → Except Error Related}
    {e : Flat.Entry} {r : Record} (h : e.finish p keep = .ok r) : r.fields = e.record.fields := by
  refine of_foldlM_eq_ok (P := fun r => r.fields = e.record.fields)
    (fun d hd x _ next hnext => ?_) rfl h
  obtain ⟨slot, j⟩ := x
  dsimp only at hnext
  split at hnext
  · obtain ⟨related, -, hset⟩ := bind_eq_ok.mp hnext
    rw [← pure_eq_ok.mp hset]
    exact hd
  · rw [← Except.ok.inj hnext]
    exact hd

theorem Flat.mem_told {parts : List Record} (hi : i ≠ 0) {key : List Key} {r : Record}
    (hne : parts ≠ []) : ((i, key), r) ∈ Flat.told p parts ↔
      ownKey? p parts i = some key ∧ parts[i]? = some r := by
  rw [Flat.told_eq hne, List.mem_filterMap]
  constructor
  · rintro ⟨j, -, hj⟩
    split_ifs at hj with hzero
    obtain ⟨k, hk, hrecord⟩ := Option.bind_eq_some_iff.mp hj
    obtain ⟨r', hr', hpair⟩ := Option.map_eq_some_iff.mp hrecord
    cases hpair
    exact ⟨hk, hr'⟩
  · rintro ⟨hkey, hr⟩
    have hlt : i < parts.length := (List.getElem?_eq_some_iff.mp hr).1
    refine ⟨i, List.mem_range.mpr hlt, ?_⟩
    rw [if_neg hi, hkey, Option.bind_some, hr, Option.map_some]

/-- What a row with a key in the first slot tells of a related slot. -/
theorem Flat.mem_told_of_rowsWith (hp : p.Star)
    (hlen : ∀ parts ∈ rows, parts.length = p.slots.length) (hi : i ≠ 0) (hlt : i < p.slots.length)
    {root key : List Key} {parts : List Record} {r : Record}
    (hparts : parts ∈ rowsWith p rows 0 root) : ((i, key), r) ∈ Flat.told p parts ↔
      keyIn? p parts i = some key ∧ parts[i]? = some r := by
  obtain ⟨hmem, hroot⟩ := List.mem_filter.mp hparts
  have hne : parts ≠ [] := List.ne_nil_of_length_pos (hlen parts hmem ▸ hp.length_pos)
  rw [Flat.mem_told hi hne, Flat.keyIn?_eq hp hi hlt, of_decide_eq_true hroot, Option.bind_some]

/-- Within one slot the keys of what is kept are distinct. -/
theorem Flat.nodup_keys_filter {pairs : List ((Nat × List Key) × Record)}
    (h : (OrderedMap.keys pairs).Nodup) (i : Nat) :
    ((pairs.filter fun f => f.1.1 = i).map (·.1.2)).Nodup := by
  have hslot : ((pairs.filter fun f => f.1.1 = i).map (·.1)).Nodup :=
    h.sublist (List.filter_sublist.map _)
  have hsame : ∀ x ∈ (pairs.filter fun f => f.1.1 = i).map (·.1), x.1 = i := by
    intro x hx
    obtain ⟨f, hf, rfl⟩ := List.mem_map.mp hx
    exact of_decide_eq_true (List.mem_filter.mp hf).2
  have hsplit : (pairs.filter fun f => f.1.1 = i).map (·.1.2) =
      ((pairs.filter fun f => f.1.1 = i).map (·.1)).map (·.2) := by
    rw [List.map_map]
    rfl
  rw [hsplit]
  exact List.Nodup.map_on
    (fun x hx y hy hxy => Prod.ext ((hsame x hx).trans (hsame y hy).symm) hxy) hslot

/-- The related records of an entry stand for those of its rows. -/
theorem Flat.onePerKey_found (hp : p.Star) (hlen : ∀ parts ∈ rows, parts.length = p.slots.length)
    (hs : p.slots[i]? = some s) (hi : i ≠ 0) (htold : KeysTold p rows) (root : List Key) :
    OnePerKey s.model
      (((Flat.entry p rows root).found.filter fun f => f.1.1 = i).map (·.2))
      (present p (rowsWith p rows 0 root) i) := by
  have hlt : i < p.slots.length := (List.getElem?_eq_some_iff.mp hs).1
  let found := (Flat.entry p rows root).found.filter fun f => f.1.1 = i
  have hkeys : OrderedMap.keys (Flat.entry p rows root).found =
      (OrderedMap.keys ((rowsWith p rows 0 root).flatMap (Flat.told p))).eraseDups :=
    OrderedMap.keys_foldl_insertNew _
  have hpairs : List.Forall₂ (fun key r => ((i, key), r) ∈ found) (found.map (·.1.2))
      (found.map (·.2)) := by
    rw [List.forall₂_map_left_iff, List.forall₂_map_right_iff, List.forall₂_same]
    intro f hf
    have hslot : f.1.1 = i := of_decide_eq_true (List.mem_filter.mp hf).2
    rw [← hslot]
    exact hf
  refine .of_keys (toldByKey_of_present hs htold fun _ hparts => List.mem_of_mem_filter hparts)
    (Flat.nodup_keys_filter (hkeys ▸ nodup_eraseDups _) i) (fun r hr => ?_)
    (fun key _ r hr => ?_) hpairs
  · obtain ⟨parts, hparts, key, hkey, hget, hrecord⟩ := (mem_present hs).mp hr
    have hpair : ((i, key), r) ∈ Flat.told p parts :=
      (Flat.mem_told_of_rowsWith hp hlen hi hlt hparts).mpr ⟨hkey, hget⟩
    have hmem : (i, key) ∈ OrderedMap.keys (Flat.entry p rows root).found := by
      rw [hkeys, List.mem_eraseDups]
      exact List.mem_map_of_mem (List.mem_flatMap.mpr ⟨parts, hparts, hpair⟩)
    obtain ⟨f, hf, hfst⟩ := List.mem_map.mp hmem
    have hslot : f ∈ found := List.mem_filter.mpr ⟨hf, decide_eq_true (by rw [hfst])⟩
    exact ⟨key, List.mem_map.mpr ⟨f, hslot, by rw [hfst]⟩, hrecord⟩
  · have hpair := OrderedMap.mem_of_mem_foldl_insertNew (List.mem_of_mem_filter hr)
    obtain ⟨parts, hparts, hpair⟩ := List.mem_flatMap.mp hpair
    obtain ⟨hkey, hget⟩ := (Flat.mem_told_of_rowsWith hp hlen hi hlt hparts).mp hpair
    obtain ⟨other, hother, hrecord⟩ := recordKey?_of_keyIn? hs hkey
    obtain rfl : other = r := Option.some.inj (hother.symm.trans hget)
    exact ⟨other, (mem_present hs).mpr ⟨parts, hparts, key, hkey, hget, hrecord⟩, hrecord, rfl⟩

end

theorem length_of_mem_partsOf {p : Plan} {rows : RowSet} {parts : List Record}
    (hparts : parts ∈ partsOf p rows) : parts.length = p.slots.length := by
  obtain ⟨values, -, rfl⟩ := List.mem_map.mp hparts
  simp [Layout.split, Layout.ofColumns]

theorem width_of_mapRows {α : Type} {rows : RowSet} {f : List Value → α} {results : List α}
    (h : rows.mapRows (fun row => .ok (f row.values)) = .ok results) :
    ∀ values ∈ rows.rows, values.length = rows.columns.length := by
  by_contra hwidth
  obtain ⟨e, he⟩ := RowSet.mapRows_error hwidth f
  rw [he] at h
  cases h

theorem Nested.onePerKey_of_scan [Regex.Engine] {p : Plan} (hp : p.Rooted)
    {includes : Includes} {rows : RowSet} (htold : KeysTold p (partsOf p rows)) {s : Slot}
    (hs : p.slots[0]? = some s) {records : List Record}
    (h : Nested.scan p includes rows = .ok records) :
    OnePerKey s.model records (present p (partsOf p rows) 0) := by
  have hwidth : ∀ values ∈ rows.rows, values.length = rows.columns.length := by
    obtain ⟨parts, hparts, -⟩ := bind_eq_ok.mp h
    exact width_of_mapRows hparts
  rw [Nested.scan_eq_view hp includes hwidth] at h
  exact Nested.onePerKey_of_view hs htold (fun _ hparts => hparts) h

theorem Flat.onePerKey_of_scan [Regex.Engine] {registry : Registry} {model label : String}
    {joins : List Join} {p : Plan} (hplan : Plan.ofJoins registry model label joins = .ok p)
    {includes : Includes} {rows : RowSet} (htold : KeysTold p (partsOf p rows)) {s : Slot}
    (hs : p.slots[0]? = some s) {records : List Record} (h : Flat.scan p includes rows = .ok records) :
    OnePerKey s.model records (present p (partsOf p rows) 0) := by
  obtain ⟨⟨⟩, hcheck, h⟩ := bind_eq_ok.mp h
  obtain ⟨parts, hparts, h⟩ := bind_eq_ok.mp h
  have hp := Plan.star_of_ofJoins hplan hcheck
  rw [RowSet.mapRows_ok (width_of_mapRows hparts)] at hparts
  obtain rfl : partsOf p rows = parts := Except.ok.inj hparts
  rw [Flat.foldl_addRow_eq hp fun _ => length_of_mem_partsOf, List.mapM_map] at h
  have hfinish : List.Forall₂ (fun key r => (Flat.entry p (partsOf p rows) key).finish p
      (fun _ s => includes.apply s.path s.model) = .ok r) _ records := forall₂_of_mapM_eq_ok h
  exact onePerKey_of_fields hs htold (fun _ hparts => hparts)
    (hfinish.imp fun _ _ => Flat.fields_of_finish)

/-- Values of one column are the same if their keys are. So a scan of either kind returns one record
for each of the key values that its rows have, no two of them folded into one; the same holds of
the records met under another record, before an include drops any. Only the filter of an include, or
a row of the wrong width, keeps a scan from its result. -/
theorem scan_onePerKey [Regex.Engine] {registry : Registry} {model label : String}
    {calls : List Planner.Call} {p : Plan} (includes : Includes) {rows : RowSet}
    (hplan : Plan.ofJoins registry model label
      ((Planner.start registry label).run calls).joins = .ok p)
    (htold : KeysTold p (partsOf p rows)) :
    (∀ a b : Value, a.Identified → b.Identified → a.Alike b → a.key? = b.key? → a = b) ∧
    (∀ s records, p.slots[0]? = some s →
      Nested.scan p includes rows = .ok records ∨ Flat.scan p includes rows = .ok records →
      OnePerKey s.model records (present p (partsOf p rows) 0)) ∧
    (∀ slot key i s children, p.slots[i]? = some s →
      (childKeys p (partsOf p rows) slot key i).mapM (view p includes (partsOf p rows) i) =
        .ok children →
      OnePerKey s.model children (present p (rowsWith p (partsOf p rows) slot key) i)) ∧
    (Flat.check p = .ok () → ∀ key entry,
      (key, entry) ∈ (partsOf p rows).foldl (Flat.addRow p) [] → ∀ i s, i ≠ 0 →
      p.slots[i]? = some s →
      OnePerKey s.model ((entry.found.filter fun f => f.1.1 = i).map (·.2))
        (present p (rowsWith p (partsOf p rows) 0 key) i)) ∧
    ((∀ values ∈ rows.rows, values.length = rows.columns.length) → includes.FiltersTotal →
      (∃ records, Nested.scan p includes rows = .ok records) ∧
      (Flat.check p = .ok () → ∃ records, Flat.scan p includes rows = .ok records)) := by
  refine ⟨fun a b => Value.eq_of_key?_eq, fun s records hs hscan => ?_,
    fun slot key i s children hs hchildren => ?_, fun hcheck key entry hentry i s hi hs => ?_,
    fun hwidth hfilters => ⟨?_, fun hcheck => ?_⟩⟩
  · rcases hscan with hscan | hscan
    · exact Nested.onePerKey_of_scan (Plan.ofJoins_rooted hplan) htold hs hscan
    · exact Flat.onePerKey_of_scan hplan htold hs hscan
  · rw [childKeys_eq_keysIn] at hchildren
    exact Nested.onePerKey_of_view hs htold (fun _ hparts => List.mem_of_mem_filter hparts)
      hchildren
  · have hp := Plan.star_of_ofJoins hplan hcheck
    have hlen : ∀ parts ∈ partsOf p rows, parts.length = p.slots.length :=
      fun _ => length_of_mem_partsOf
    rw [Flat.foldl_addRow_eq hp hlen] at hentry
    obtain ⟨root, -, hpair⟩ := List.mem_map.mp hentry
    obtain ⟨rfl, rfl⟩ := Prod.mk.inj hpair
    exact Flat.onePerKey_found hp hlen hs hi htold root
  · exact (Nested.scan_failsOnly hwidth (Plan.ofJoins_rooted hplan) includes).exists_ok
      hfilters.no_error
  · exact (Flat.scan_failsOnly hwidth includes hcheck).exists_ok hfilters.no_error

theorem Layout.get_of_mem_split {l : Layout} {values : List Value} {r : Record}
    (hr : r ∈ l.split values) (name : String) : r.get name = .null ∨ r.get name ∈ values := by
  obtain ⟨i, -, rfl⟩ := List.mem_map.mp hr
  rw [Record.get, Record.get?, Record.ofFields, OrderedMap.find?_ofList]
  cases hfind : OrderedMap.find? name _ with
  | none => exact .inl rfl
  | some value =>
    refine .inr ?_
    obtain ⟨⟨target, v⟩, hmem, hcell⟩ := List.mem_filterMap.mp
      (List.mem_reverse.mp (OrderedMap.mem_of_find? hfind))
    dsimp only at hcell
    split_ifs at hcell
    cases hcell
    exact (List.of_mem_zip hmem).2

/-- In a result of one kind of values all key values can be told. -/
theorem keysTold_of_alike {p : Plan} {rows : RowSet}
    (hidentified : ∀ value ∈ rows.rows.flatten, value.Identified)
    (halike : ∀ a ∈ rows.rows.flatten, ∀ b ∈ rows.rows.flatten, a.Alike b) :
    KeysTold p (partsOf p rows) := by
  have hvalue : ∀ parts ∈ partsOf p rows, ∀ (i : Nat) (r : Record), parts[i]? = some r → ∀ name,
      r.get name = .null ∨ r.get name ∈ rows.rows.flatten := by
    intro parts hparts i r hr name
    obtain ⟨values, hvalues, rfl⟩ := List.mem_map.mp hparts
    exact (Layout.get_of_mem_split (List.mem_of_getElem? hr) name).imp_right
      fun hmem => List.mem_flatten.mpr ⟨values, hvalues, hmem⟩
  intro i s hs a ha b hb r r' hr hr' name hname
  rcases hvalue a ha i r hr name with hleft | hleft <;>
    rcases hvalue b hb i r' hr' name with hright | hright
  · rw [hleft, hright]
    exact ⟨.inr .null, .inr .null, .null _⟩
  · rw [hleft]
    exact ⟨.inr .null, hidentified _ hright, .null _⟩
  · rw [hright]
    exact ⟨hidentified _ hleft, .inr .null, .orNull _⟩
  · exact ⟨hidentified _ hleft, hidentified _ hright, halike _ hleft _ hright⟩

/-- Documents that are identified by a list of texts. -/
def taggedDocs : Registry :=
  .ofModels [{ name := "Doc", table := "docs", fields := [{ name := "tags", primaryKey := true }] }]

def tagRows (keys : List (List String)) : RowSet where
  columns := ["d_tags"]
  rows := keys.map fun tags => [.list (tags.map .text)]

/-- The plan of the documents alone. -/
def taggedPlan : Except Error Plan :=
  Plan.ofJoins taggedDocs "Doc" "d" ((Planner.start taggedDocs "d").run []).joins

/-- Two documents, the first one twice. -/
def wordRows : RowSet := tagRows [["a", "b"], ["a b"], ["a", "b"]]

/-- Two documents whose lists have one text. -/
def commaRows : RowSet := tagRows [["a, b"], ["a", "b"]]

theorem alike_tags (as bs : List String) :
    Value.Alike (.list (as.map .text)) (.list (bs.map .text)) := by
  refine .list fun i a b ha hb => ?_
  obtain ⟨s, -, rfl⟩ := List.mem_map.mp (List.mem_of_getElem? ha)
  obtain ⟨t, -, rfl⟩ := List.mem_map.mp (List.mem_of_getElem? hb)
  exact .text s t

/-- Lists of words, which their text tells apart. -/
theorem keysTold_tagRows {p : Plan} {keys : List (List String)}
    (hwords : ∀ tags ∈ keys, ∀ tag ∈ tags, tag ≠ "" ∧ tag ≠ "NULL" ∧
      tag.toList.all Value.isInner = true) : KeysTold p (partsOf p (tagRows keys)) := by
  have hkey : ∀ value ∈ (tagRows keys).rows.flatten, ∃ tags ∈ keys,
      value = .list (tags.map .text) := by
    intro value hvalue
    obtain ⟨values, hvalues, hmem⟩ := List.mem_flatten.mp hvalue
    obtain ⟨tags, htags, rfl⟩ := List.mem_map.mp hvalues
    exact ⟨tags, htags, List.mem_singleton.mp hmem⟩
  refine keysTold_of_alike (fun value hvalue => ?_) fun a ha b hb => ?_
  · obtain ⟨tags, htags, rfl⟩ := hkey value hvalue
    refine .inr (.list fun word hword => ?_)
    obtain ⟨tag, htag, rfl⟩ := List.mem_map.mp hword
    obtain ⟨hempty, hnull, hinner⟩ := hwords tags htags tag htag
    exact .text hempty hnull (List.all_eq_true.mp hinner)
  · obtain ⟨as, -, rfl⟩ := hkey a ha
    obtain ⟨bs, -, rfl⟩ := hkey b hb
    exact alike_tags as bs

theorem scan_onePerKey_tags : ∃ p records, taggedPlan = .ok p ∧ KeysTold p (partsOf p wordRows) ∧
    Flat.scan p [] wordRows = .ok records ∧ records.length = 2 ∧
    ∀ s, p.slots[0]? = some s →
      OnePerKey s.model records (present p (partsOf p wordRows) 0) := by
  have hcomputed : ((taggedPlan >>= fun p => Flat.scan p [] wordRows).map
      List.length).toOption = some 2 := by
    decide +kernel
  obtain ⟨records, hrecords, hlength⟩ := exists_ok_of_toOption hcomputed
  obtain ⟨p, hplan, hscan⟩ := bind_eq_ok.mp hrecords
  have htold : KeysTold p (partsOf p wordRows) := keysTold_tagRows (by decide)
  exact ⟨p, records, hplan, htold, hscan, hlength,
    fun s hs => (scan_onePerKey [] hplan htold).2.1 s records hs (.inr hscan)⟩

/-- A list of one text with a comma has the key of a list of two texts, and the rows of both are
folded into one record. -/
theorem scan_folds_tags :
    (Value.list [.text "a, b"]).key? = (Value.list [.text "a", .text "b"]).key? ∧
    (Value.list [.text "a, b"]).key?.isSome ∧
    Value.list [.text "a, b"] ≠ Value.list [.text "a", .text "b"] ∧
    Value.Alike (.list [.text "a, b"]) (.list [.text "a", .text "b"]) ∧
    ∃ p nested flat, taggedPlan = .ok p ∧ commaRows.rows.length = 2 ∧
      Nested.scan p [] commaRows = .ok [nested] ∧ Flat.scan p [] commaRows = .ok [flat] := by
  refine ⟨by decide +kernel, by decide +kernel, by simp, alike_tags ["a, b"] ["a", "b"], ?_⟩
  have hnested : ((taggedPlan >>= fun p => Nested.scan p [] commaRows).map
      List.length).toOption = some 1 := by
    decide +kernel
  have hflat : ((taggedPlan >>= fun p => Flat.scan p [] commaRows).map
      List.length).toOption = some 1 := by
    decide +kernel
  obtain ⟨nested, hnested, hnestedLength⟩ := exists_ok_of_toOption hnested
  obtain ⟨p, hplan, hnested⟩ := bind_eq_ok.mp hnested
  rw [hplan] at hflat
  obtain ⟨flat, hflat, hflatLength⟩ := exists_ok_of_toOption hflat
  obtain ⟨r, rfl⟩ := List.length_eq_one_iff.mp hnestedLength
  obtain ⟨q, rfl⟩ := List.length_eq_one_iff.mp hflatLength
  exact ⟨p, r, q, hplan, rfl, hnested, hflat⟩

end RelMap
