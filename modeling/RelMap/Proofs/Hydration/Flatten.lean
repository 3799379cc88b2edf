import Mathlib.Data.List.Nodup
import RelMap.Proofs.Hydration.Forest

/-! Hydration undoes a left join: the records of a joined forest are those of its nodes. -/
namespace RelMap.Nested

/-- The key that a joined row has for a slot. -/
def rowKey? (p : Plan) (row : JoinedRow) (i : Nat) : Option (List Key) :=
  (row i).bind fun fields => p.slots[i]?.bind fun s => s.model.recordKey? { fields }

/-- A row of the nodes from a slot on. Its slots are below this one and hold nodes of the forest,
and a slot is absent if the slot above it is. -/
structure JoinedRow.From (p : Plan) (roots : List Node) (slot : Nat) (row : JoinedRow) :
    Prop where
  within : ∀ i fields, row i = some fields →
    slot ∈ p.lineage i ∧ ∃ n, Within roots i n ∧ n.fields = fields
  closed : ∀ i, row i ≠ none →
    i = slot ∨ ∃ parent, p.parentOf? i = some parent ∧ row parent ≠ none

/-- A row of the nodes below a slot, which is not among them. -/
structure JoinedRow.Below (p : Plan) (roots : List Node) (slot : Nat) (row : JoinedRow) :
    Prop where
  within : ∀ i fields, row i = some fields →
    i ≠ slot ∧ slot ∈ p.lineage i ∧ ∃ n, Within roots i n ∧ n.fields = fields
  closed : ∀ i, row i ≠ none →
    ∃ parent, p.parentOf? i = some parent ∧ (parent = slot ∨ row parent ≠ none)

namespace JoinedRow

variable {p : Plan} {roots : List Node} {slot c : Nat} {a b : JoinedRow}

theorem join_eq_some {i : Nat} {fields : List (String × Value)} (h : a.join b i = some fields) :
    a i = some fields ∨ b i = some fields := by
  unfold join at h
  cases ha : a i with
  | none => rw [ha, Option.none_or] at h; exact Or.inr h
  | some other => rw [ha, Option.some_or] at h; exact Or.inl h

theorem join_ne_none {i : Nat} : a.join b i ≠ none ↔ a i ≠ none ∨ b i ≠ none := by
  unfold join
  cases a i <;> simp

theorem Below.absent : Below p roots slot .absent :=
  ⟨fun i fields h => by simp [JoinedRow.absent] at h,
    fun i h => by simp [JoinedRow.absent] at h⟩

theorem Below.join (ha : a.Below p roots slot) (hb : b.Below p roots slot) :
    (a.join b).Below p roots slot := by
  constructor
  · intro i fields h
    rcases join_eq_some h with h | h
    · exact ha.within i fields h
    · exact hb.within i fields h
  · intro i h
    rcases join_ne_none.mp h with h | h
    · obtain ⟨parent, hparent, hup⟩ := ha.closed i h
      exact ⟨parent, hparent, hup.imp_right fun hne => join_ne_none.mpr (Or.inl hne)⟩
    · obtain ⟨parent, hparent, hup⟩ := hb.closed i h
      exact ⟨parent, hparent, hup.imp_right fun hne => join_ne_none.mpr (Or.inr hne)⟩

theorem From.below (h : a.From p roots c) (hc : p.parentOf? c = some slot) :
    a.Below p roots slot := by
  have hslot : slot ∈ p.lineage c :=
    (Plan.mem_lineage_of_parent hc).mpr (Or.inr (p.self_mem_lineage slot))
  constructor
  · intro i fields hi
    obtain ⟨hci, hn⟩ := h.within i fields hi
    refine ⟨?_, Plan.mem_lineage_trans hslot hci, hn⟩
    have := Plan.parentOf?_lt hc
    have := Plan.le_of_mem_lineage hci
    omega
  · intro i hi
    rcases h.closed i hi with rfl | ⟨parent, hparent, hup⟩
    · exact ⟨slot, hc, Or.inl rfl⟩
    · exact ⟨parent, hparent, Or.inr hup⟩

theorem Below.from {n : Node} (h : b.Below p roots slot) (hn : Within roots slot n) :
    ((single slot n.fields).join b).From p roots slot := by
  have hself : ((single slot n.fields).join b) slot = some n.fields := by
    simp [JoinedRow.join, single]
  constructor
  · intro i fields hi
    rcases join_eq_some hi with hi | hi
    · unfold single at hi
      split_ifs at hi with he
      rw [he]
      exact ⟨p.self_mem_lineage slot, n, hn, Option.some.inj hi⟩
    · exact (h.within i fields hi).2
  · intro i hi
    by_cases he : i = slot
    · exact Or.inl he
    · right
      have hb : b i ≠ none := by simpa [JoinedRow.join, single, he] using hi
      obtain ⟨parent, hparent, rfl | hup⟩ := h.closed i hb
      · exact ⟨parent, hparent, by rw [hself]; simp⟩
      · exact ⟨parent, hparent, join_ne_none.mpr (Or.inr hup)⟩

end JoinedRow

theorem Node.mem_rows {p : Plan} {slot : Nat} {n : Node} {row : JoinedRow}
    (h : row ∈ n.rows p slot) : row slot = some n.fields := by
  rw [rows_eq] at h
  obtain ⟨b, -, rfl⟩ := List.mem_map.mp h
  simp [JoinedRow.join, JoinedRow.single]

theorem Node.rows_from {p : Plan} {roots : List Node} {slot : Nat} {n : Node}
    (hn : Within roots slot n) : ∀ row ∈ n.rows p slot, row.From p roots slot := by
  induction hm : p.slots.length - slot using Nat.strongRecOn generalizing slot n with
  | ind m ih =>
    intro row hrow
    rw [rows_eq] at hrow
    obtain ⟨b, hb, rfl⟩ := List.mem_map.mp hrow
    refine JoinedRow.Below.from (forall_mem_product .absent (fun a b => .join) ?_ b hb) hn
    intro rows hrows a ha
    obtain ⟨c, hc, rfl⟩ := List.mem_map.mp hrows
    rcases mem_orAbsent ha with rfl | ha
    · exact .absent
    · obtain ⟨child, hchild, ha⟩ := List.mem_flatMap.mp ha
      obtain ⟨hlt, hlen⟩ := Plan.lt_of_mem_childrenOf hc
      exact (ih _ (by omega) (.child hn hchild) rfl a ha).below (Plan.mem_childrenOf.mp hc)

/-- The rows of the children in one slot have nothing below another one. -/
theorem Node.factor_absent {p : Plan} {roots : List Node} {slot d e : Nat} {n : Node}
    (hn : Within roots slot n) (hd : p.parentOf? d = some slot) (he : p.parentOf? e = some slot)
    (hne : e ≠ d) : ∀ a ∈ n.factor p e, ∀ i, d ∈ p.lineage i → a i = none := by
  intro a ha i hi
  rcases mem_orAbsent ha with rfl | ha
  · rfl
  · obtain ⟨child, hchild, ha⟩ := List.mem_flatMap.mp ha
    by_contra hsome
    obtain ⟨fields, hfields⟩ := Option.ne_none_iff_exists'.mp hsome
    have hei := ((rows_from (.child hn hchild) a ha).within i fields hfields).1
    exact hne (Plan.eq_of_mem_lineage he hd hei hi)

theorem Node.childrenOf_nodup (p : Plan) (slot : Nat) : (p.childrenOf slot).Nodup :=
  List.nodup_range.filter _

theorem Node.exists_mem_rows {p : Plan} {roots : List Node} {slot c : Nat} {n child : Node}
    (hn : Within roots slot n) (hchild : child ∈ n.children c) (hc : p.parentOf? c = some slot)
    {r : JoinedRow} (hr : r ∈ child.rows p c) :
    ∃ row ∈ n.rows p slot, ∀ i, c ∈ p.lineage i → row i = r i := by
  have hfactor : r ∈ n.factor p c :=
    mem_orAbsent_of_mem (List.mem_flatMap.mpr ⟨child, hchild, hr⟩)
  obtain ⟨b, hb, hbr⟩ := exists_mem_product (Plan.mem_childrenOf.mpr hc)
    (childrenOf_nodup p slot) (fun e _ => n.factor_ne_nil p e)
    (fun e he hne => factor_absent hn hc (Plan.mem_childrenOf.mp he) hne) hfactor
  refine ⟨(JoinedRow.single slot n.fields).join b, ?_, fun i hi => ?_⟩
  · rw [rows_eq]
    exact List.mem_map_of_mem hb
  · have hlt := Plan.parentOf?_lt hc
    have hle := Plan.le_of_mem_lineage hi
    have hne : i ≠ slot := by omega
    simpa [JoinedRow.join, JoinedRow.single, hne] using hbr i hi

section
variable {p : Plan} {columns : List String} {roots : List Node} (hf : Forest p columns roots)
include hf

/-- Every row of a node is part of a row of the whole forest. -/
theorem Forest.exists_mem_rows {slot : Nat} {n : Node} (hn : Within roots slot n) :
    ∀ r ∈ n.rows p slot, ∃ row ∈ roots.flatMap (Node.rows p 0),
      ∀ i, slot ∈ p.lineage i → row i = r i := by
  induction hn with
  | root hn => exact fun r hr => ⟨r, List.mem_flatMap.mpr ⟨_, hn, hr⟩, fun i _ => rfl⟩
  | child hn hchild ih =>
    intro r hr
    have hc := Plan.mem_childrenOf.mp ((hf.fits _ _ hn).children_of _ _ hchild)
    obtain ⟨above, habove, heq⟩ := Node.exists_mem_rows hn hchild hc hr
    obtain ⟨row, hrow, hrest⟩ := ih above habove
    refine ⟨row, hrow, fun i hi => ?_⟩
    have hslot := (Plan.mem_lineage_of_parent hc).mpr (Or.inr (p.self_mem_lineage _))
    rw [hrest i (Plan.mem_lineage_trans hslot hi), heq i hi]

end

/-- The keys of the rows of nodes of a slot are those of the nodes. -/
theorem eraseDups_rowKeys (p : Plan) (c : Nat) (nodes : List Node) :
    ((nodes.flatMap (Node.rows p c)).filterMap (rowKey? p · c)).eraseDups =
      (nodes.filterMap (Node.key? p c)).eraseDups := by
  rw [List.filterMap_flatMap, List.filterMap_eq_flatMap_toList (Node.key? p c)]
  refine eraseDups_flatMap_congr fun n _ => ?_
  have hconst : (n.rows p c).filterMap (rowKey? p · c) =
      (n.rows p c).filterMap fun _ => n.key? p c := by
    refine List.filterMap_congr fun row hrow => ?_
    rw [rowKey?, Node.mem_rows hrow]
    rfl
  rw [hconst, eraseDups_filterMap_const (n.rows_ne_nil p c)]
  cases n.key? p c <;> simp [List.eraseDups_cons]

theorem filterMap_orAbsent {α : Type} {h : JoinedRow → Option α} (hnone : h .absent = none)
    (rows : List JoinedRow) : (orAbsent rows).filterMap h = rows.filterMap h := by
  unfold orAbsent
  split_ifs with hempty
  · rw [List.isEmpty_iff.mp hempty, List.filterMap_cons_none hnone]
  · rfl

/-- The key that a joined row has for a slot under one of a given key. -/
def linkKey? (p : Plan) (slot : Nat) (key : List Key) (c : Nat) (row : JoinedRow) :
    Option (List Key) :=
  if rowKey? p row slot = some key then rowKey? p row c else none

theorem linkKey?_congr {p : Plan} {slot c : Nat} {key : List Key} {a b : JoinedRow}
    (hslot : a slot = b slot) (hc : a c = b c) :
    linkKey? p slot key c a = linkKey? p slot key c b := by
  rw [linkKey?, linkKey?, rowKey?, rowKey?, rowKey?, rowKey?, hslot, hc]

theorem linkKey?_of_absent {p : Plan} {slot c : Nat} {key : List Key} {a : JoinedRow}
    (h : a slot = none) : linkKey? p slot key c a = none := by
  rw [linkKey?, rowKey?, h, Option.bind_none, if_neg (by simp)]

theorem rowKey?_of_eq_some {p : Plan} {row : JoinedRow} {i : Nat} {n : Node}
    (h : row i = some n.fields) : rowKey? p row i = n.key? p i := by
  rw [rowKey?, h]
  rfl

section
variable {p : Plan} {columns : List String} {roots : List Node} (hf : Forest p columns roots)
  {slot c : Nat} {key : List Key}
include hf

theorem Forest.childKeys_nodup {n : Node} (hn : Within roots slot n) (c : Nat) :
    ((n.children c).filterMap (Node.key? p c)).Nodup := by
  refine List.pairwise_filterMap.mpr ?_
  refine (List.pairwise_map.mp ((hf.fits slot n hn).keys_nodup c)).imp fun hab x hx y hy he => ?_
  exact hab (hx.trans (he ▸ hy.symm))

/-- The rows of a node show all its children in one slot. -/
theorem Forest.linkKeys_self {n : Node} (hn : Within roots slot n)
    (hkey : n.key? p slot = some key) (hc : p.parentOf? c = some slot) :
    ((n.rows p slot).filterMap (linkKey? p slot key c)).eraseDups =
      (n.children c).filterMap (Node.key? p c) := by
  have hne : c ≠ slot := by
    have := Plan.parentOf?_lt hc
    omega
  have hjoined : ∀ b : JoinedRow, linkKey? p slot key c
      ((JoinedRow.single slot n.fields).join b) = rowKey? p b c := by
    intro b
    have hslot : ((JoinedRow.single slot n.fields).join b) slot = some n.fields := by
      simp [JoinedRow.join, JoinedRow.single]
    rw [linkKey?, rowKey?_of_eq_some hslot, if_pos hkey, rowKey?, rowKey?]
    simp [JoinedRow.join, JoinedRow.single, hne]
  have hother : ∀ e ∈ p.childrenOf slot, e ≠ c → ∀ a ∈ n.factor p e, ∀ i, i = c → a i = none := by
    rintro e he hec a ha i rfl
    exact Node.factor_absent hn hc (Plan.mem_childrenOf.mp he) hec a ha i (p.self_mem_lineage i)
  rw [Node.rows_eq, List.filterMap_map]
  simp only [Function.comp_def, hjoined]
  rw [eraseDups_filterMap_product (Plan.mem_childrenOf.mpr hc) (Node.childrenOf_nodup p slot)
    (fun e _ => n.factor_ne_nil p e) hother fun a b hab => by rw [rowKey?, rowKey?, hab c rfl],
    Node.factor, filterMap_orAbsent (by rfl), eraseDups_rowKeys,
    eraseDups_of_nodup (hf.childKeys_nodup hn c)]

/-- The rows of any node show all children of a node in one slot, or none. -/
theorem Forest.linkKeys {n : Node} (hn : Within roots slot n) (hkey : n.key? p slot = some key)
    (hc : p.parentOf? c = some slot) {s : Nat} {m : Node} (hm : Within roots s m) :
    ((m.rows p s).filterMap (linkKey? p slot key c)).eraseDups = [] ∨
      ((m.rows p s).filterMap (linkKey? p slot key c)).eraseDups =
        (n.children c).filterMap (Node.key? p c) := by
  induction hk : p.slots.length - s using Nat.strongRecOn generalizing s m with
  | ind k ih =>
    by_cases hs : s ∈ p.lineage slot
    · by_cases he : s = slot
      · subst he
        by_cases hsame : m.key? p s = some key
        · rw [hf.eq_of_key s m n hm hn (hsame.trans hkey.symm)]
          exact Or.inr (hf.linkKeys_self hn hkey hc)
        · left
          rw [List.filterMap_eq_nil_iff.mpr fun row hrow => ?_, List.eraseDups_nil]
          rw [linkKey?, rowKey?_of_eq_some (Node.mem_rows hrow), if_neg hsame]
      · obtain ⟨d, hd, hdslot⟩ := Plan.exists_child_of_mem_lineage hs he
        have hdc : d ∈ p.lineage c := (Plan.mem_lineage_of_parent hc).mpr (Or.inr hdslot)
        have hd' := Plan.mem_childrenOf.mp hd
        obtain ⟨hlt, hlen⟩ := Plan.lt_of_mem_childrenOf hd
        have hjoined : ∀ b : JoinedRow, linkKey? p slot key c
            ((JoinedRow.single s m.fields).join b) = linkKey? p slot key c b := by
          intro b
          have hle := Plan.le_of_mem_lineage hdslot
          have hle' := Plan.le_of_mem_lineage hdc
          have hslot : slot ≠ s := Ne.symm he
          have hcs : c ≠ s := by omega
          exact linkKey?_congr (by simp [JoinedRow.join, JoinedRow.single, hslot])
            (by simp [JoinedRow.join, JoinedRow.single, hcs])
        rw [Node.rows_eq, List.filterMap_map]
        simp only [Function.comp_def, hjoined]
        rw [eraseDups_filterMap_product hd (Node.childrenOf_nodup p s)
          (fun e _ => m.factor_ne_nil p e)
          (fun e he' hne => Node.factor_absent hm hd' (Plan.mem_childrenOf.mp he') hne)
          fun a b hab => linkKey?_congr (hab slot hdslot) (hab c hdc),
          Node.factor, filterMap_orAbsent (linkKey?_of_absent rfl), List.filterMap_flatMap]
        exact eraseDups_flatMap_of_each (hf.childKeys_nodup hn c) fun child hchild =>
          ih _ (by omega) (.child hm hchild) rfl
    · left
      rw [List.filterMap_eq_nil_iff.mpr fun row hrow => ?_, List.eraseDups_nil]
      refine linkKey?_of_absent (by_contra fun hsome => hs ?_)
      obtain ⟨fields, hfields⟩ := Option.ne_none_iff_exists'.mp hsome
      exact ((Node.rows_from hm row hrow).within slot fields hfields).1

/-- The rows of a forest show all children of each node in each slot, in their order. -/
theorem Forest.linkKeys_eq {n : Node} (hn : Within roots slot n)
    (hkey : n.key? p slot = some key) (hc : p.parentOf? c = some slot) :
    ((roots.flatMap (Node.rows p 0)).filterMap (linkKey? p slot key c)).eraseDups =
      (n.children c).filterMap (Node.key? p c) := by
  have hall := eraseDups_flatMap_of_each (hf.childKeys_nodup hn c) fun m hm =>
    hf.linkKeys hn hkey hc (.root hm)
  rw [← List.filterMap_flatMap] at hall
  refine hall.elim (fun hnil => ?_) id
  rw [hnil]
  refine (List.filterMap_eq_nil_iff.mpr fun child hchild => ?_).symm
  by_contra hsome
  obtain ⟨r, hr⟩ := List.exists_mem_of_ne_nil _ (child.rows_ne_nil p c)
  obtain ⟨above, habove, heq⟩ := Node.exists_mem_rows hn hchild hc hr
  obtain ⟨row, hrow, hrest⟩ := hf.exists_mem_rows hn above habove
  have hslot : row slot = some n.fields :=
    (hrest slot (p.self_mem_lineage slot)).trans (Node.mem_rows habove)
  have hcrow : row c = some child.fields := by
    rw [hrest c ((Plan.mem_lineage_of_parent hc).mpr (Or.inr (p.self_mem_lineage slot))),
      heq c (p.self_mem_lineage c), Node.mem_rows hr]
  have hlink : linkKey? p slot key c row = child.key? p c := by
    rw [linkKey?, rowKey?_of_eq_some hslot, if_pos hkey, rowKey?_of_eq_some hcrow]
  obtain ⟨k, hk⟩ := Option.ne_none_iff_exists'.mp hsome
  have hmem : k ∈ ((roots.flatMap (Node.rows p 0)).filterMap (linkKey? p slot key c)).eraseDups :=
    List.mem_eraseDups.mpr (List.mem_filterMap.mpr ⟨row, hrow, hlink.trans hk⟩)
  simp [hnil] at hmem

end

theorem filterMap_zip_targets (targets : List (Nat × String)) (value : Nat × String → Value)
    (i : Nat) : ((targets.zip (targets.map value)).filterMap fun ((slot, field), v) =>
      if slot = i then some (field, v) else none) =
    ((targets.filter fun t => t.1 = i).map (·.2)).map fun field => (field, value (i, field)) := by
  induction targets with
  | nil => rfl
  | cons t targets ih =>
    obtain ⟨slot, field⟩ := t
    rw [List.map_cons, List.zip_cons_cons, List.filterMap_cons, ih]
    by_cases h : slot = i <;> simp [h]

/-- A row is split into the fields that it was joined from, and `NULL` where a slot is absent. -/
theorem JoinedRow.split_values {p : Plan} {columns : List String} {row : JoinedRow}
    (hfields : ∀ i fields, row i = some fields →
      OrderedMap.keys fields = fieldNames p columns i)
    {i : Nat} (hi : i < p.slots.length) :
    ((Layout.ofColumns p columns).split (row.values p columns))[i]? =
      some { fields := (row i).getD ((fieldNames p columns i).map fun name => (name, .null)) } := by
  have hcount : (Layout.ofColumns p columns).slotCount = p.slots.length := rfl
  rw [Layout.split, List.getElem?_map, hcount, List.getElem?_range hi, Option.map_some]
  rw [JoinedRow.values, filterMap_zip_targets, Record.ofFields, OrderedMap.ofList_map_pair,
    ← fieldNames]
  cases hrow : row i with
  | none => simp only [hrow, Option.bind_none, Option.getD_none]
  | some fields =>
    have hkeys := hfields i fields hrow
    have hnodup : (OrderedMap.keys fields).Nodup := hkeys ▸ nodup_eraseDups _
    simp only [hrow, Option.bind_some, Option.getD_some]
    rw [← hkeys, OrderedMap.map_find?_of_nodup hnodup]

section
variable {p : Plan} {columns : List String} {roots : List Node} (hf : Forest p columns roots)
  {row : JoinedRow} (hrow : row.From p roots 0)
include hf hrow

theorem Forest.fields_eq : ∀ i fields, row i = some fields →
    OrderedMap.keys fields = fieldNames p columns i := by
  intro i fields hi
  obtain ⟨-, n, hn, rfl⟩ := hrow.within i fields hi
  exact (hf.fits i n hn).fields_eq

theorem Forest.ownKey?_values (i : Nat) :
    ownKey? p ((Layout.ofColumns p columns).split (row.values p columns)) i = rowKey? p row i := by
  unfold ownKey? rowKey?
  cases hslot : p.slots[i]? with
  | none => cases row i <;> rfl
  | some s =>
    have hi := (List.getElem?_eq_some_iff.mp hslot).1
    rw [JoinedRow.split_values (hf.fields_eq hrow) hi, Option.bind_some, Option.bind_some]
    cases row i with
    | some fields => rfl
    | none =>
      refine recordKey?_of_null fun name => ?_
      rw [Record.get, Record.get?, Option.getD_none, OrderedMap.find?_map_pair]
      split_ifs <;> rfl

theorem Forest.keyIn?_values (i : Nat) :
    keyIn? p ((Layout.ofColumns p columns).split (row.values p columns)) i = rowKey? p row i := by
  induction i using Nat.strongRecOn with
  | ind i ih =>
    cases hparent : p.parentOf? i with
    | none => rw [keyIn?_of_parentOf?_eq_none hparent, hf.ownKey?_values hrow]
    | some parent =>
      rw [keyIn?_of_parentOf?_eq_some hparent, ih parent (Plan.parentOf?_lt hparent),
        hf.ownKey?_values hrow]
      cases hi : row i with
      | none => simp [rowKey?, hi]
      | some fields =>
        have hup : row parent ≠ none := by
          rcases hrow.closed i (by rw [hi]; simp) with rfl | ⟨other, hother, hne⟩
          · have := Plan.parentOf?_lt hparent
            omega
          · rw [hparent] at hother
            rwa [Option.some.inj hother]
        obtain ⟨above, habove⟩ := Option.ne_none_iff_exists'.mp hup
        obtain ⟨-, n, hn, rfl⟩ := hrow.within parent above habove
        obtain ⟨key, hkey⟩ := Option.ne_none_iff_exists'.mp (hf.fits parent n hn).key?_ne_none
        rw [rowKey?_of_eq_some habove, hkey, Option.bind_some]

end

theorem JoinedRow.from_root {p : Plan} {roots : List Node} {row : JoinedRow}
    (hrow : row ∈ roots.flatMap (Node.rows p 0)) : row.From p roots 0 := by
  obtain ⟨n, hn, hrow⟩ := List.mem_flatMap.mp hrow
  exact Node.rows_from (.root hn) row hrow

theorem filterMap_partsOf_joinedRows {α : Type} (p : Plan) (columns : List String)
    (roots : List Node) (f : List Record → Option α) :
    (partsOf p (joinedRows p columns roots)).filterMap f =
      (roots.flatMap (Node.rows p 0)).filterMap fun row =>
        f ((Layout.ofColumns p columns).split (row.values p columns)) := by
  rw [partsOf, joinedRows, List.map_map, List.filterMap_map]
  rfl

section
variable {p : Plan} {columns : List String} {roots : List Node} (hf : Forest p columns roots)
include hf

theorem Forest.rootKeys_eq :
    rootKeys p (partsOf p (joinedRows p columns roots)) = roots.filterMap (Node.key? p 0) := by
  have hnodup : (roots.filterMap (Node.key? p 0)).Nodup := by
    refine List.pairwise_filterMap.mpr ((List.pairwise_map.mp hf.keys_nodup).imp ?_)
    intro m n hmn x hx y hy he
    exact hmn (hx.trans (he ▸ hy.symm))
  rw [rootKeys, filterMap_partsOf_joinedRows, List.filterMap_congr fun row hrow =>
    hf.keyIn?_values (JoinedRow.from_root hrow) 0, eraseDups_rowKeys, eraseDups_of_nodup hnodup]

variable {slot : Nat} {n : Node} {key : List Key} (hn : Within roots slot n)
  (hkey : n.key? p slot = some key)
include hn hkey

theorem Forest.childKeys_eq {c : Nat} (hc : p.parentOf? c = some slot) :
    childKeys p (partsOf p (joinedRows p columns roots)) slot key c =
      (n.children c).filterMap (Node.key? p c) := by
  rw [childKeys, filterMap_partsOf_joinedRows, ← hf.linkKeys_eq hn hkey hc]
  refine congrArg List.eraseDups (List.filterMap_congr fun row hrow => ?_)
  have hroot := JoinedRow.from_root hrow
  rw [hf.keyIn?_values hroot, hf.keyIn?_values hroot, linkKey?]

/-- A joined row in which the slot has the key of the node has the fields of the node there. -/
theorem Forest.part_eq {row : JoinedRow} (hrow : row ∈ roots.flatMap (Node.rows p 0))
    (hk : rowKey? p row slot = some key) :
    ((Layout.ofColumns p columns).split (row.values p columns))[slot]? =
      some { fields := n.fields } := by
  have hroot := JoinedRow.from_root hrow
  have hlt : slot < p.slots.length := by
    obtain ⟨s, hs, -⟩ := Option.bind_eq_some_iff.mp hkey
    exact (List.getElem?_eq_some_iff.mp hs).1
  rw [JoinedRow.split_values (hf.fields_eq hroot) hlt]
  obtain ⟨fields, hfields, -⟩ := Option.bind_eq_some_iff.mp hk
  obtain ⟨-, m, hm, rfl⟩ := hroot.within slot fields hfields
  rw [rowKey?_of_eq_some hfields] at hk
  rw [hfields, Option.getD_some, hf.eq_of_key slot m n hm hn (hk.trans hkey.symm)]

theorem Forest.firstRecord_eq :
    firstRecord p (partsOf p (joinedRows p columns roots)) slot key = { fields := n.fields } := by
  obtain ⟨r, hr⟩ := List.exists_mem_of_ne_nil _ (n.rows_ne_nil p slot)
  obtain ⟨row, hrow, hrest⟩ := hf.exists_mem_rows hn r hr
  have hslot : row slot = some n.fields :=
    (hrest slot (p.self_mem_lineage slot)).trans (Node.mem_rows hr)
  have hself : rowKey? p row slot = some key := (rowKey?_of_eq_some hslot).trans hkey
  have hvalue : ∀ row ∈ roots.flatMap (Node.rows p 0),
      (if keyIn? p ((Layout.ofColumns p columns).split (row.values p columns)) slot = some key then
        ((Layout.ofColumns p columns).split (row.values p columns))[slot]? else none) =
      if rowKey? p row slot = some key then some { fields := n.fields } else none := by
    intro row hrow
    rw [hf.keyIn?_values (JoinedRow.from_root hrow)]
    split_ifs with hk
    · exact hf.part_eq hn hkey hrow hk
    · rfl
  rw [firstRecord, ← List.head?_filterMap, filterMap_partsOf_joinedRows,
    List.filterMap_congr hvalue, head?_filterMap_ite hrow hself, Option.getD_some]

/-- What can be read off the rows of a forest for one of its nodes is the record of the node. -/
theorem Forest.view_eq_record [Regex.Engine] :
    view p [] (partsOf p (joinedRows p columns roots)) slot key = .ok (n.record p slot) := by
  induction hk : p.slots.length - slot using Nat.strongRecOn generalizing slot n key with
  | ind k ih =>
    have hrelation : ∀ x ∈ p.childSlots slot, (do
        let children ← (childKeys p (partsOf p (joinedRows p columns roots)) slot key x.1).mapM
          (view p [] (partsOf p (joinedRows p columns roots)) x.1)
        return (x.2.2.relation,
          ← Includes.apply [] x.2.1.path x.2.1.model (related x.2.1 children))) =
        Except.ok (x.2.2.relation, related x.2.1 ((n.children x.1).map (Node.record p x.1))) := by
      intro x hx
      have hc := (Plan.of_mem_childSlots hx).1
      obtain ⟨hlt, hlen⟩ := Plan.lt_of_mem_childrenOf hc
      rw [hf.childKeys_eq hn hkey (Plan.mem_childrenOf.mp hc), mapM_filterMap_ok]
      · rfl
      · intro child hchild
        have hwithin := Within.child hn hchild
        obtain ⟨k', hk'⟩ := Option.ne_none_iff_exists'.mp (hf.fits _ _ hwithin).key?_ne_none
        exact ⟨k', hk', ih _ (by omega) hwithin hk' rfl⟩
    rw [view_eq, mapM_congr_of_mem hrelation, mapM_ok, hf.firstRecord_eq hn hkey, Node.record_eq]
    rfl

end

/-- A scan of the rows that a left join makes of a forest, over the slots of a plan for the joins
of any run of a planner, returns the records of the forest. -/
theorem scan_joinedRows [Regex.Engine] {registry : Registry} {model label : String}
    {calls : List Planner.Call} {p : Plan} {columns : List String} {roots : List Node}
    (hplan : Plan.ofJoins registry model label
      ((Planner.start registry label).run calls).joins = .ok p)
    (hforest : Forest p columns roots) :
    scan p [] (joinedRows p columns roots) = .ok (roots.map (Node.record p 0)) := by
  have hwidth : ∀ values ∈ (joinedRows p columns roots).rows,
      values.length = (joinedRows p columns roots).columns.length := by
    intro values hvalues
    obtain ⟨row, -, rfl⟩ := List.mem_map.mp hvalues
    simp [JoinedRow.values, Layout.ofColumns, joinedRows]
  rw [scan_eq_view (Plan.ofJoins_rooted hplan) [] hwidth, hforest.rootKeys_eq]
  refine mapM_filterMap_ok fun n hn => ?_
  obtain ⟨key, hkey⟩ :=
    Option.ne_none_iff_exists'.mp (hforest.fits 0 n (.root hn)).key?_ne_none
  exact ⟨key, hkey, hforest.view_eq_record (.root hn) hkey⟩

def postNode (id : Int) : Node := .mk [("id", .int id), ("author", .int 1)] fun _ => []

def userNode (id : Int) (posts : List Node) : Node :=
  .mk [("id", .int id)] fun c => if c = 1 then posts else []

/-- A user with two posts and one without. -/
def userForest : List Node := [userNode 1 [postNode 10, postNode 11], userNode 2 []]

def userColumns : List String := ["u_id", "p_id", "p_user_id"]

/-- The plan of users and their posts, as far as the forest is concerned. -/
structure IsUserPlan (p : Plan) : Prop where
  children_eq : p.childrenOf 0 = [1]
  toMany_eq : p.slots[1]?.map Slot.isToMany = some true
  users_eq : fieldNames p userColumns 0 = ["id"]
  posts_eq : fieldNames p userColumns 1 = ["id", "author"]
  userKeys_eq : userForest.map (Node.key? p 0) = [[.int 1], [.int 2]].map some
  postKeys_eq : [postNode 10, postNode 11].map (Node.key? p 1) =
    [[.int 10], [.int 11]].map some

theorem ne_none_of_map_eq {α β : Type} {f : α → Option β} {l : List α} {m : List β}
    (h : l.map f = m.map some) {a : α} (ha : a ∈ l) : f a ≠ none := by
  obtain ⟨b, -, hb⟩ := List.mem_map.mp (h ▸ List.mem_map_of_mem ha)
  rw [← hb]
  simp

theorem within_userForest {slot : Nat} {n : Node} (h : Within userForest slot n) :
    slot = 0 ∧ n ∈ userForest ∨ slot = 1 ∧ n ∈ [postNode 10, postNode 11] := by
  induction h with
  | root h => exact Or.inl ⟨rfl, h⟩
  | @child slot c n child h hc ih =>
    have hchildren : ∀ m ∈ userForest, ∀ c, m.children c = [] ∨
        c = 1 ∧ m.children c ⊆ [postNode 10, postNode 11] := by
      intro m hm c
      simp only [userForest, List.mem_cons, List.not_mem_nil, or_false] at hm
      rcases hm with rfl | rfl <;> by_cases hc : c = 1 <;> simp [userNode, Node.children, hc]
    rcases ih with ⟨-, hn⟩ | ⟨-, hn⟩
    · rcases hchildren n hn c with hnil | ⟨rfl, hsub⟩
      · rw [hnil] at hc
        exact absurd hc List.not_mem_nil
      · exact Or.inr ⟨rfl, hsub hc⟩
    · simp only [List.mem_cons, List.not_mem_nil, or_false] at hn
      rcases hn with rfl | rfl <;> simp [postNode, Node.children] at hc

theorem IsUserPlan.post_fits {p : Plan} (h : IsUserPlan p) {n : Node}
    (hn : n ∈ [postNode 10, postNode 11]) : n.Fits p userColumns 1 := by
  have hkey := ne_none_of_map_eq h.postKeys_eq hn
  simp only [List.mem_cons, List.not_mem_nil, or_false] at hn
  refine ⟨?_, hkey, ?_, ?_, ?_⟩ <;> rcases hn with rfl | rfl <;>
    simp [h.posts_eq, postNode, Node.fields, Node.children, OrderedMap.keys]

theorem IsUserPlan.user_fits {p : Plan} (h : IsUserPlan p) {n : Node} (hn : n ∈ userForest) :
    n.Fits p userColumns 0 := by
  have hkey := ne_none_of_map_eq h.userKeys_eq hn
  have hposts : ((([postNode 10, postNode 11]).map (Node.key? p 1))).Nodup := by
    rw [h.postKeys_eq]
    decide
  have hlength : ∀ s, p.slots[1]? = some s → s.isToMany = true := by
    intro s hs
    simpa [hs] using h.toMany_eq
  have hform : ∃ id posts, n = userNode id posts ∧ (posts.map (Node.key? p 1)).Nodup := by
    rcases List.mem_cons.mp hn with rfl | hn
    · exact ⟨1, _, rfl, hposts⟩
    · exact ⟨2, [], List.mem_singleton.mp hn, List.nodup_nil⟩
  obtain ⟨id, posts, rfl, hnodup⟩ := hform
  refine ⟨by rw [h.users_eq]; rfl, hkey, fun c child hchild => ?_, fun c => ?_,
    fun c s hs hone => ?_⟩
  · by_cases hc : c = 1
    · rw [hc, h.children_eq]
      exact List.mem_singleton_self 1
    · simp [userNode, Node.children, hc] at hchild
  · by_cases hc : c = 1
    · simpa [hc, userNode, Node.children] using hnodup
    · simp [userNode, Node.children, hc]
  · by_cases hc : c = 1
    · rw [hlength s (hc ▸ hs)] at hone
      simp at hone
    · simp [userNode, Node.children, hc]

theorem IsUserPlan.forest {p : Plan} (h : IsUserPlan p) : Forest p userColumns userForest := by
  refine ⟨fun slot n hn => ?_, by rw [h.userKeys_eq]; decide, fun slot m n hm hn hkey => ?_⟩
  · rcases within_userForest hn with ⟨rfl, hmem⟩ | ⟨rfl, hmem⟩
    · exact h.user_fits hmem
    · exact h.post_fits hmem
  · have hinj : ∀ {slot : Nat} {l : List Node}, (l.map (Node.key? p slot)).Nodup →
        m ∈ l → n ∈ l → m.key? p slot = n.key? p slot → m = n :=
      fun hnodup hm hn he => List.inj_on_of_nodup_map hnodup hm hn he
    rcases within_userForest hm with ⟨rfl, hmem⟩ | ⟨rfl, hmem⟩ <;>
      rcases within_userForest hn with ⟨hs, hmem'⟩ | ⟨hs, hmem'⟩
    · exact hinj (by rw [h.userKeys_eq]; decide) hmem hmem' hkey
    · omega
    · omega
    · exact hinj (by rw [h.postKeys_eq]; decide) hmem hmem' hkey

theorem scan_joinedRows_users : ∃ p, Plan.ofJoins .blog "User" "u"
      ((Planner.start .blog "u").run [.path "User" "u" .left ["posts"]]).joins = .ok p ∧
    Forest p userColumns userForest ∧
    scan p [] (joinedRows p userColumns userForest) = .ok (userForest.map (Node.record p 0)) := by
  have hplanned : ((Plan.ofJoins .blog "User" "u" ((Planner.start .blog "u").run
      [.path "User" "u" .left ["posts"]]).joins).toOption.any fun p =>
      p.childrenOf 0 = [1] ∧ p.slots[1]?.map Slot.isToMany = some true ∧
      fieldNames p userColumns 0 = ["id"] ∧ fieldNames p userColumns 1 = ["id", "author"] ∧
      userForest.map (Node.key? p 0) = [[.int 1], [.int 2]].map some ∧
      [postNode 10, postNode 11].map (Node.key? p 1) =
        [[.int 10], [.int 11]].map some) = true := by
    decide +kernel
  cases hplan : Plan.ofJoins .blog "User" "u" ((Planner.start .blog "u").run
      [.path "User" "u" .left ["posts"]]).joins with
  | error e => simp [hplan, Except.toOption] at hplanned
  | ok p =>
    rw [hplan] at hplanned
    obtain ⟨hchildren, hmany, husers, hposts, huserKeys, hpostKeys⟩ := of_decide_eq_true hplanned
    have hforest := IsUserPlan.forest ⟨hchildren, hmany, husers, hposts, huserKeys, hpostKeys⟩
    exact ⟨p, rfl, hforest, scan_joinedRows hplan hforest⟩

end RelMap.Nested
