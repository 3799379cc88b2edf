import RelMap.Proofs.Hydration.Sighting

/-! The nested records of a result, read off its rows without a store. -/
namespace RelMap

theorem RowSet.mapRows_ok {α : Type} {rows : RowSet}
    (hwidth : ∀ values ∈ rows.rows, values.length = rows.columns.length)
    (f : List Value → α) :
    rows.mapRows (fun row => .ok (f row.values)) = .ok (rows.rows.map f) := by
  rw [← mapM_ok]
  refine mapM_congr_of_mem fun values hvalues => ?_
  rw [Row.ofValues, dif_pos (hwidth values hvalues)]
  rfl

theorem RowSet.mapRows_error {α : Type} {rows : RowSet}
    (hwidth : ¬∀ values ∈ rows.rows, values.length = rows.columns.length)
    (f : List Value → α) : ∃ e, rows.mapRows (fun row => .ok (f row.values)) = .error e := by
  cases h : rows.mapRows fun row => .ok (f row.values) with
  | error e => exact ⟨e, rfl⟩
  | ok l =>
    refine absurd (fun values hvalues => ?_) hwidth
    obtain ⟨b, -, hb⟩ := exists_right_of_forall₂ (forall₂_of_mapM_eq_ok h) hvalues
    obtain ⟨row, hrow, -⟩ := bind_eq_ok.mp hb
    unfold Row.ofValues at hrow
    split_ifs at hrow with heq
    exact heq

theorem Layout.relations_of_mem_split {l : Layout} {values : List Value} {r : Record}
    (hr : r ∈ l.split values) : r.relations = [] := by
  obtain ⟨i, -, rfl⟩ := List.mem_map.mp hr
  rfl

/-- Includes whose filters can be evaluated on every record. -/
def Includes.FiltersTotal [Regex.Engine] (includes : Includes) : Prop :=
  ∀ i ∈ OrderedMap.values includes, ∀ condition, i.filter = some condition →
    ∀ r, ∃ b, condition.evaluate r = .ok b

/-- What the filter of an include ends with on some record. -/
def Includes.FilterError [Regex.Engine] (includes : Includes) (e : Error) : Prop :=
  ∃ path i condition r, includes.find? path = some i ∧ i.filter = some condition ∧
    condition.evaluate r = .error e

theorem Includes.FiltersTotal.no_error [Regex.Engine] {includes : Includes}
    (h : includes.FiltersTotal) (e : Error) : ¬includes.FilterError e := by
  rintro ⟨path, i, condition, r, hi, hfilter, he⟩
  obtain ⟨b, hb⟩ := h i (OrderedMap.mem_values_of_find? hi) condition hfilter r
  simp [hb] at he

theorem Includes.apply_failsOnly [Regex.Engine] (includes : Includes) (path : String)
    (model : Model) (related : Related) :
    FailsOnly includes.FilterError (includes.apply path model related) := by
  unfold Includes.apply
  cases hfind : includes.find? path with
  | none => exact .ok related
  | some i =>
    have hprocess : ∀ records, FailsOnly includes.FilterError (i.process model records) := by
      intro records
      refine FailsOnly.bind ?_ fun kept => .ok _
      unfold Include.keepMatching
      cases hfilter : i.filter with
      | none => exact .ok records
      | some condition =>
        exact .filterM fun r _ e he => ⟨path, i, condition, r, hfind, hfilter, he⟩
    dsimp only
    unfold Include.apply
    split_ifs
    · exact .ok related
    · cases related with
      | many records => exact (hprocess records).bind fun kept => .ok _
      | one record =>
        cases record with
        | none => exact .ok _
        | some r => exact (hprocess [r]).bind fun kept => .ok _

theorem Record.foldlM_setRelation {ι : Type} (name : ι → String)
    (related : ι → Except Error Related) (l : List ι) (r : Record)
    (hnodup : (l.map name).Nodup) (hnew : ∀ x ∈ l, name x ∉ OrderedMap.keys r.relations) :
    l.foldlM (fun r x => return r.setRelation (name x) (← related x)) r =
      (do
        let relations ← l.mapM fun x => return (name x, ← related x)
        return { r with relations := r.relations ++ relations }) := by
  induction l generalizing r with
  | nil => cases r; simp [bind, Except.bind, pure, Except.pure]
  | cons x l ih =>
    obtain ⟨hx, hl⟩ := List.nodup_cons.mp hnodup
    rw [List.foldlM_cons, List.mapM_cons]
    cases related x with
    | error e => rfl
    | ok value =>
      have hset : r.setRelation (name x) value =
          { r with relations := r.relations ++ [(name x, value)] } := by
        rw [setRelation, OrderedMap.insert_of_not_mem (hnew x List.mem_cons_self)]
      have hnew' : ∀ y ∈ l, name y ∉ OrderedMap.keys (r.setRelation (name x) value).relations := by
        intro y hy hmem
        rw [hset, OrderedMap.keys, List.map_append, List.mem_append] at hmem
        rcases hmem with hmem | hmem
        · exact hnew y (List.mem_cons_of_mem x hy) hmem
        · have hname : name y = name x := List.mem_singleton.mp hmem
          exact hx (hname ▸ List.mem_map_of_mem hy)
      refine (ih _ hl hnew').trans ?_
      rw [hset]
      cases h : l.mapM fun x => return (name x, ← related x) with
      | error e => simp [bind, Except.bind, pure, Except.pure]
      | ok relations => simp [bind, Except.bind, pure, Except.pure]

namespace Nested

/-- The records of the slots in each row. -/
def partsOf (p : Plan) (rows : RowSet) : List (List Record) :=
  rows.rows.map (Layout.ofColumns p rows.columns).split

theorem length_of_mem_partsOf {p : Plan} {rows : RowSet} {parts : List Record}
    (h : parts ∈ partsOf p rows) : parts.length = p.slots.length := by
  obtain ⟨values, -, rfl⟩ := List.mem_map.mp h
  simp [Layout.split, Layout.ofColumns]

/-- The record of a slot and key. It has the fields of the first row in which the slot is present
with this key, and under each relation, in the order of the slots, what the includes keep of the
children met under it. -/
def view [Regex.Engine] (p : Plan) (includes : Includes) (rows : List (List Record)) (slot : Nat)
    (key : List Key) : Except Error Record := do
  let relations ← (p.childSlots slot).attach.mapM fun ⟨(i, s, b), _⟩ => do
    let children ← (childKeys p rows slot key i).mapM fun k => view p includes rows i k
    return (b.relation, ← includes.apply s.path s.model (related s children))
  return { firstRecord p rows slot key with relations }
termination_by p.slots.length - slot
decreasing_by
  have := Plan.lt_of_mem_childrenOf (Plan.of_mem_childSlots ‹_›).1
  omega

theorem view_eq [Regex.Engine] (p : Plan) (includes : Includes) (rows : List (List Record))
    (slot : Nat) (key : List Key) : view p includes rows slot key = (do
      let relations ← (p.childSlots slot).mapM fun x => do
        let children ← (childKeys p rows slot key x.1).mapM (view p includes rows x.1)
        return (x.2.2.relation, ← includes.apply x.2.1.path x.2.1.model (related x.2.1 children))
      return { firstRecord p rows slot key with relations }) := by
  rw [view, List.mapM_subtype (g := fun x => do
    let children ← (childKeys p rows slot key x.1).mapM (view p includes rows x.1)
    return (x.2.2.relation, ← includes.apply x.2.1.path x.2.1.model (related x.2.1 children)))
    fun x h => rfl, List.unattach_attach]

section
variable (p : Plan) (keep : Nat → Slot → Related → Except Error Related) (s : Store) (id : NodeId)

theorem materialize_eq_foldlM :
    materialize p keep s id = (p.childrenOf id.slot).foldlM (fun r i =>
      match p.slots[i]? with
      | none => .ok r
      | some slot =>
        match slot.branch with
        | none => .ok r
        | some b => do
          let children ← (s.childKeys id i).mapM fun key => materialize p keep s ⟨i, key⟩
          return r.setRelation b.relation (← keep i slot (related slot children)))
        (s.record id) := by
  have hlist : (p.childrenOf id.slot).attach.unattach = p.childrenOf id.slot :=
    List.unattach_attach
  rw [materialize]
  exact (List.foldlM_subtype fun r i h => rfl).trans
    (congrArg (fun l => List.foldlM _ (s.record id) l) hlist)

theorem materialize_eq :
    materialize p keep s id = (p.childSlots id.slot).foldlM (fun r x => do
      let related ← (do
        let children ← (s.childKeys id x.1).mapM fun key => materialize p keep s ⟨x.1, key⟩
        keep x.1 x.2.1 (related x.2.1 children))
      return r.setRelation x.2.2.relation related) (s.record id) := by
  rw [materialize_eq_foldlM, Plan.childSlots, List.foldlM_filterMap]
  congr 1
  funext r i
  cases hslot : p.slots[i]? with
  | none => rfl
  | some slot =>
    cases hbranch : slot.branch with
    | none => simp [hbranch]; rfl
    | some b => simp [hbranch]

end

section
variable {p : Plan} {keep keep' : Nat → Slot → Related → Except Error Related}
  (hkeep : ∀ i slot, p.slots[i]? = some slot → keep i slot = keep' i slot)
include hkeep

end

section
variable {p : Plan} (hp : p.Rooted)
include hp

/-- What is materialized of a store is what the rows say that it was filled from. -/
theorem materialize_eq_view [Regex.Engine] {s : Store} {rows : List (List Record)}
    (includes : Includes)
    (hs : s.Holds (rows.flatMap (sightings p)))
    (hrelations : ∀ slot key, (firstRecord p rows slot key).relations = []) (id : NodeId)
    (hid : id.slot < p.slots.length) :
    materialize p (fun _ slot => includes.apply slot.path slot.model) s id =
      view p includes rows id.slot id.key := by
  induction hn : p.slots.length - id.slot using Nat.strongRecOn generalizing id with
  | ind n ih =>
    rw [materialize_eq, hs.record_eq hid, Record.foldlM_setRelation _ _ _ _
      (hp.childSlots_relation_nodup id.slot) (by simp [hrelations, OrderedMap.keys]),
      hrelations, view_eq]
    simp only [List.nil_append]
    congr 1
    refine mapM_congr_of_mem fun x hx => ?_
    obtain ⟨hchild, -, -⟩ := Plan.of_mem_childSlots hx
    obtain ⟨hlt, hlen⟩ := Plan.lt_of_mem_childrenOf hchild
    rw [hs.childKeys_eq (Plan.mem_childrenOf.mp hchild)]
    have hless : p.slots.length - x.1 < n := by omega
    have hkeys : ∀ key, materialize p (fun _ slot => includes.apply slot.path slot.model) s
        ⟨x.1, key⟩ = view p includes rows x.1 key :=
      fun key => ih _ hless ⟨x.1, key⟩ hlen rfl
    simp only [hkeys, bind_assoc]

/-- A result is its records as they can be read off its rows, errors of the includes among
them. -/
theorem scan_eq_view [Regex.Engine] (includes : Includes) {rows : RowSet}
    (hwidth : ∀ values ∈ rows.rows, values.length = rows.columns.length) :
    scan p includes rows =
      (rootKeys p (partsOf p rows)).mapM (view p includes (partsOf p rows) 0) := by
  have hlen : ∀ parts ∈ partsOf p rows, parts.length = p.slots.length :=
    fun parts => length_of_mem_partsOf
  have hs := Store.holds_rows hlen
  have hrelations : ∀ slot key, (firstRecord p (partsOf p rows) slot key).relations = [] := by
    intro slot key
    rw [firstRecord]
    cases hfirst : (partsOf p rows).findSome? _ with
    | none => rfl
    | some r =>
      obtain ⟨parts, hparts, hr⟩ := List.exists_of_findSome?_eq_some hfirst
      obtain ⟨values, -, rfl⟩ := List.mem_map.mp hparts
      split_ifs at hr
      exact Layout.relations_of_mem_split (List.mem_of_getElem? hr)
  rw [scan, scanKeeping, RowSet.mapRows_ok hwidth, ← partsOf]
  simp only [bind, Except.bind]
  rw [hs.roots_eq_rootKeys hp.length_pos hp.parentOf?_eq_none_iff, List.mapM_map]
  exact mapM_congr_of_mem fun key _ =>
    materialize_eq_view hp includes hs hrelations ⟨0, key⟩ hp.length_pos

theorem keyIn?_root {parts : List Record} {i : Nat} (h : keyIn? p parts i ≠ none) :
    keyIn? p parts 0 ≠ none := by
  induction i using Nat.strongRecOn with
  | ind i ih =>
    by_cases hi : i = 0
    · rwa [hi] at h
    · have hlt : i < p.slots.length := lt_of_nodeIn? (by simpa [nodeIn?] using h)
      obtain ⟨parent, hparent⟩ :=
        Option.ne_none_iff_exists'.mp (mt (hp.parentOf?_eq_none_iff i hlt).mp hi)
      rw [keyIn?_of_parentOf?_eq_some hparent] at h
      exact ih parent (Plan.parentOf?_lt hparent) fun hnone => h (by rw [hnone, Option.bind_none])

/-- Rows without a key of the first slot tell nothing. -/
theorem view_filter [Regex.Engine] (includes : Includes) (rows : List (List Record)) :
    rootKeys p (rows.filter fun parts => (keyIn? p parts 0).isSome) = rootKeys p rows ∧
      view p includes (rows.filter fun parts => (keyIn? p parts 0).isSome) =
        view p includes rows := by
  have hpresent : ∀ {α : Type} (f : List Record → Option α) (i : Nat),
      (∀ parts, keyIn? p parts i = none → f parts = none) →
      (rows.filter fun parts => (keyIn? p parts 0).isSome).filterMap f = rows.filterMap f := by
    intro α f i hf
    rw [List.filterMap_filter]
    refine congrArg (fun g => rows.filterMap g) (funext fun parts => ?_)
    split_ifs with hroot
    · rfl
    · refine (hf parts (by_contra fun hi => hroot ?_)).symm
      simpa [Option.isSome_iff_ne_none] using keyIn?_root hp hi
  have hchildren : childKeys p (rows.filter fun parts => (keyIn? p parts 0).isSome) =
      childKeys p rows := by
    funext slot key child
    rw [childKeys, childKeys, hpresent _ child fun parts hnone => by rw [hnone]; simp]
  have hfirst : firstRecord p (rows.filter fun parts => (keyIn? p parts 0).isSome) =
      firstRecord p rows := by
    funext slot key
    rw [firstRecord, firstRecord, ← List.head?_filterMap, ← List.head?_filterMap,
      hpresent _ slot fun parts hnone => by rw [hnone]; simp]
  refine ⟨by rw [rootKeys, rootKeys, hpresent _ 0 fun parts hnone => hnone], ?_⟩
  funext slot key
  induction hn : p.slots.length - slot using Nat.strongRecOn generalizing slot key with
  | ind n ih =>
    rw [view_eq, view_eq, hchildren, hfirst]
    congr 1
    refine mapM_congr_of_mem fun x hx => ?_
    obtain ⟨hlt, hlen⟩ := Plan.lt_of_mem_childrenOf (Plan.of_mem_childSlots hx).1
    rw [mapM_congr_of_mem fun k _ => ih _ (by omega) x.1 k rfl]

end

/-- A record fails with the includes of its own relations or with a record below it. -/
theorem view_failsOnly [Regex.Engine] (p : Plan) (includes : Includes) (rows : List (List Record))
    (slot : Nat) (key : List Key) :
    FailsOnly includes.FilterError (view p includes rows slot key) := by
  induction hn : p.slots.length - slot using Nat.strongRecOn generalizing slot key with
  | ind n ih =>
    rw [view_eq]
    refine FailsOnly.bind (.mapM fun x hx => ?_) fun relations => .ok _
    obtain ⟨hlt, hlen⟩ := Plan.lt_of_mem_childrenOf (Plan.of_mem_childSlots hx).1
    have hless : p.slots.length - x.1 < n := by omega
    refine FailsOnly.bind (.mapM fun k _ => ih _ hless x.1 k rfl) fun children => ?_
    exact (includes.apply_failsOnly _ _ _).bind fun kept => .ok _

theorem view_exists_ok [Regex.Engine] {includes : Includes} (h : includes.FiltersTotal)
    (p : Plan) (rows : List (List Record)) (slot : Nat) (key : List Key) :
    ∃ r, view p includes rows slot key = .ok r :=
  (view_failsOnly p includes rows slot key).exists_ok h.no_error

/-- A scan returns the records that can be read off the rows, one for each key of the first slot, or
fails where an include fails on one of them. It succeeds if all filters do, and rows without a key
of the first slot change nothing. -/
theorem scan_reads_rows [Regex.Engine] {registry : Registry} {model label : String}
    {calls : List Planner.Call} {p : Plan} (includes : Includes) {rows : RowSet}
    (hplan : Plan.ofJoins registry model label
      ((Planner.start registry label).run calls).joins = .ok p)
    (hwidth : ∀ values ∈ rows.rows, values.length = rows.columns.length) :
    scan p includes rows =
      (rootKeys p (partsOf p rows)).mapM (view p includes (partsOf p rows) 0) ∧
    (includes.FiltersTotal → ∃ records, scan p includes rows = .ok records ∧ List.Forall₂
      (fun key r => view p includes (partsOf p rows) 0 key = .ok r)
      (rootKeys p (partsOf p rows)) records) ∧
    scan p includes { rows with rows := rows.rows.filter fun values =>
      (keyIn? p ((Layout.ofColumns p rows.columns).split values) 0).isSome } =
      scan p includes rows := by
  have hp := Plan.ofJoins_rooted hplan
  have hscan := scan_eq_view hp includes hwidth
  refine ⟨hscan, fun hfilters => ?_, ?_⟩
  · obtain ⟨records, hrecords⟩ := mapM_exists_ok (l := rootKeys p (partsOf p rows)) fun key _ =>
      view_exists_ok hfilters p (partsOf p rows) 0 key
    exact ⟨records, hscan.trans hrecords, forall₂_of_mapM_eq_ok hrecords⟩
  · have hfiltered : ∀ values ∈ rows.rows.filter fun values =>
        (keyIn? p ((Layout.ofColumns p rows.columns).split values) 0).isSome,
        values.length = rows.columns.length :=
      fun values hvalues => hwidth values (List.mem_of_mem_filter hvalues)
    have hparts : partsOf p { rows with rows := rows.rows.filter fun values =>
        (keyIn? p ((Layout.ofColumns p rows.columns).split values) 0).isSome } =
        (partsOf p rows).filter fun parts => (keyIn? p parts 0).isSome := by
      rw [partsOf, partsOf, List.filter_map]
      rfl
    obtain ⟨hroots, hview⟩ := view_filter hp includes (partsOf p rows)
    rw [hscan, scan_eq_view hp includes hfiltered, hparts, hroots, hview]

/-- The posts of users that have an identifier. -/
def postIncludes : Includes :=
  [("posts", { path := "posts", filter := some (.compare ⟨{ name := "id" }, .isNotNull⟩) })]

/-- Two posts of one user, and one of no user. -/
def postRows : RowSet where
  columns := ["u_id", "p_id", "p_user_id"]
  rows := [[.int 1, .int 10, .int 1], [.int 1, .int 11, .int 1], [.null, .int 12, .null]]

theorem postIncludes_filtersTotal [Regex.Engine] : postIncludes.FiltersTotal := by
  intro i hi condition hcondition r
  obtain rfl := List.mem_singleton.mp hi
  obtain rfl := Option.some.inj hcondition
  exact ⟨_, rfl⟩

theorem scan_reads_rows_posts : ∃ p, Plan.ofJoins .blog "User" "u"
      ((Planner.start .blog "u").run [.path "User" "u" .left ["posts"]]).joins = .ok p ∧
    (∀ values ∈ postRows.rows, values.length = postRows.columns.length) ∧
    postIncludes.FiltersTotal ∧
    ∃ records, scan p postIncludes postRows = .ok records ∧ List.Forall₂
      (fun key r => view p postIncludes (partsOf p postRows) 0 key = .ok r)
      (rootKeys p (partsOf p postRows)) records := by
  have hplanned : (Plan.ofJoins .blog "User" "u" ((Planner.start .blog "u").run
      [.path "User" "u" .left ["posts"]]).joins).toOption.isSome = true := by
    decide +kernel
  have hwidth : ∀ values ∈ postRows.rows, values.length = postRows.columns.length := by
    decide +kernel
  cases hplan : Plan.ofJoins .blog "User" "u" ((Planner.start .blog "u").run
      [.path "User" "u" .left ["posts"]]).joins with
  | error e => simp [hplan, Except.toOption] at hplanned
  | ok p =>
    obtain ⟨-, hrecords, -⟩ := scan_reads_rows postIncludes hplan hwidth
    exact ⟨p, rfl, hwidth, postIncludes_filtersTotal, hrecords postIncludes_filtersTotal⟩

end Nested
end RelMap
