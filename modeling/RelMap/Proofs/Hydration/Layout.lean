import RelMap.Hydration.Layout
import RelMap.Proofs.Join.Label
import RelMap.Proofs.OrderedMap
import RelMap.Proofs.Schema.Model

/-! Reading the names of columns back. Where the labels of the slots are unlike one another and
plain, the name made of a label and a column is resolved to the slot and the column. -/
namespace RelMap

/-- A plan whose slots have plain labels that are unlike one another. -/
structure Plan.Labelled (p : Plan) : Prop where
  nodup : (p.slots.map Slot.label).Nodup
  plain : ∀ s ∈ p.slots, Label.Plain s.label

/-- A slot is told by its label. -/
theorem Plan.Labelled.slot_eq {p : Plan} (hp : p.Labelled) {i j : Nat} {s t : Slot}
    (hs : p.slots[i]? = some s) (ht : p.slots[j]? = some t) (h : s.label = t.label) :
    i = j ∧ s = t := by
  have hlt : i < (p.slots.map Slot.label).length := by
    rw [List.length_map]
    exact (List.getElem?_eq_some_iff.mp hs).1
  have hij : i = j := by
    refine (List.getElem?_inj hlt hp.nodup).mp ?_
    rw [List.getElem?_map, List.getElem?_map, hs, ht, Option.map_some, Option.map_some, h]
  subst hij
  exact ⟨rfl, Option.some.inj (hs.symm.trans ht)⟩

/-- The field of a slot that is kept in a column, if the column is one of the slot. -/
def Slot.fieldOf? (s : Slot) (column : String × String) : Option String :=
  if column.1 = s.label then some (s.model.toField column.2) else none

/-- A record of the values that cells have in the columns of a slot. Of cells of the same column
the last one counts. -/
structure Slot.Receives (s : Slot) (cells : List ((String × String) × Value)) (r : Record) :
    Prop where
  get?_eq : ∀ f ∈ s.model.fields,
    r.get? f.name = OrderedMap.find? (s.label, f.columnName) cells.reverse
  declared : ∀ name, r.contains name = true → ∃ f ∈ s.model.fields, f.name = name

namespace Slot

variable {s : Slot} (hm : s.model.Distinct)
include hm

theorem fieldOf?_eq_some_iff {f : Field} (hf : f ∈ s.model.fields) {column : String × String}
    (hcolumn : column.1 = s.label → ∃ g ∈ s.model.fields, g.columnName = column.2) :
    s.fieldOf? column = some f.name ↔ column = (s.label, f.columnName) := by
  unfold fieldOf?
  constructor
  · intro h
    split_ifs at h with hlabel
    obtain ⟨g, hg, hgcolumn⟩ := hcolumn hlabel
    rw [← hgcolumn, hm.toField_columnName hg] at h
    rw [← (hm.columnName_inj hg hf).mp (Option.some.inj h), hgcolumn, ← hlabel]
  · rintro rfl
    rw [if_pos rfl, hm.toField_columnName hf]

/-- The record of the cells of a slot, where every cell under its label is in one of its
columns. -/
theorem receives {cells : List ((String × String) × Value)}
    (hcells : ∀ c ∈ OrderedMap.keys cells, c.1 = s.label → ∃ g ∈ s.model.fields,
      g.columnName = c.2) :
    s.Receives cells (Record.ofFields (cells.filterMap fun cell =>
      (s.fieldOf? cell.1).map (·, cell.2))) where
  get?_eq f hf := by
    have hkeys : ∀ c ∈ OrderedMap.keys cells.reverse,
        s.fieldOf? c = some f.name ↔ c = (s.label, f.columnName) := by
      intro c hc
      rw [OrderedMap.keys, List.map_reverse, List.mem_reverse] at hc
      exact fieldOf?_eq_some_iff hm hf (hcells c hc)
    rw [Record.get?, Record.ofFields, OrderedMap.find?_ofList, ← List.filterMap_reverse,
      OrderedMap.find?_filterMap_key hkeys]
  declared name h := by
    rw [Record.contains, OrderedMap.contains, Record.ofFields, OrderedMap.find?_ofList,
      OrderedMap.find?_isSome_iff, OrderedMap.keys, List.map_reverse, List.mem_reverse,
      List.map_filterMap] at h
    obtain ⟨cell, hcell, hname⟩ := List.mem_filterMap.mp h
    simp only [fieldOf?, Option.map_map, Option.map_eq_some_iff, Option.ite_none_right_eq_some,
      Function.comp_apply] at hname
    obtain ⟨_, ⟨hlabel, hfield⟩, rfl⟩ := hname
    obtain ⟨g, hg, hgcolumn⟩ := hcells cell.1 (List.mem_map_of_mem hcell) hlabel
    refine ⟨g, hg, ?_⟩
    rw [← Option.some.inj hfield, ← hgcolumn, hm.toField_columnName hg]

end Slot

theorem Slot.Receives.contains {s : Slot} {cells : List ((String × String) × Value)} {r : Record}
    (h : s.Receives cells r) {f : Field} (hf : f ∈ s.model.fields)
    (hmem : (s.label, f.columnName) ∈ OrderedMap.keys cells) : r.contains f.name = true := by
  change (r.get? f.name).isSome = true
  rw [h.get?_eq f hf, OrderedMap.find?_isSome_iff, OrderedMap.keys, List.map_reverse,
    List.mem_reverse]
  exact hmem

namespace Layout

theorem eq_of_splitDot? {text label rest : List Char}
    (h : splitDot? text = some (label, rest)) : text = label ++ '.' :: rest := by
  unfold splitDot? at h
  split at h
  · simp at h
  · next c tail htail =>
    obtain ⟨rfl, rfl⟩ := Prod.mk.inj (Option.some.inj h)
    have hdot : c = '.' := by
      have hhead := List.head?_dropWhile_not (fun d => decide (d ≠ '.')) text
      rw [htail] at hhead
      simpa using hhead
    calc text = text.takeWhile (· ≠ '.') ++ text.dropWhile (· ≠ '.') :=
          List.takeWhile_append_dropWhile.symm
      _ = text.takeWhile (· ≠ '.') ++ '.' :: tail := by rw [htail, hdot]

theorem foldl_best_eq (c : Candidate) {candidates : List Candidate}
    (hall : ∀ d ∈ candidates, d = c) :
    candidates.foldl (fun best new => match best with
      | some old => if new.isBetter old then some new else some old
      | none => some new) (some c) = some c := by
  induction candidates with
  | nil => rfl
  | cons d rest ih =>
    obtain rfl := hall d List.mem_cons_self
    rw [List.foldl_cons]
    dsimp only
    rw [ite_self]
    exact ih fun e he => hall e (List.mem_cons_of_mem _ he)

/-- The best of candidates that are all the same. -/
theorem best?_eq_some {candidates : List Candidate} {c : Candidate} (hmem : c ∈ candidates)
    (hall : ∀ d ∈ candidates, d = c) : best? candidates = some c := by
  cases candidates with
  | nil => simp at hmem
  | cons d rest =>
    obtain rfl := hall d List.mem_cons_self
    exact foldl_best_eq d fun e he => hall e (List.mem_cons_of_mem _ he)

theorem candidate?_eq_some {column : List Char} {slot : Slot} {index : Nat} {c : Candidate} :
    candidate? column slot index = some c ↔ ∃ rest, column = slot.label.toList ++ '_' :: rest ∧
      c = ⟨index, (slot.model.fieldByColumn? (String.ofList rest)).isSome, slot.label.length,
        String.ofList rest⟩ := by
  have hcons : ∀ rest, slot.label.toList ++ '_' :: rest = slot.label.toList ++ ['_'] ++ rest :=
    fun rest => List.append_cons ..
  unfold candidate?
  rw [Option.map_eq_some_iff]
  constructor
  · rintro ⟨rest, hrest, rfl⟩
    exact ⟨rest, (Text.eq_append_of_dropStart? hrest).trans (hcons rest).symm, rfl⟩
  · rintro ⟨rest, rfl, rfl⟩
    exact ⟨rest, hcons rest ▸ Text.dropStart?_append _ rest, rfl⟩

/-- The name under which a column of the table with a label is returned. -/
def nameOf (column : String × String) : String := column.1 ++ "_" ++ column.2

theorem toList_nameOf (column : String × String) :
    (nameOf column).toList = column.1.toList ++ '_' :: column.2.toList := by
  simp [nameOf]

section
variable {p : Plan} (hp : p.Labelled) {i : Nat} {s : Slot} (hs : p.slots[i]? = some s)
include hp hs

/-- Text before a dot in the name is no label of a slot. -/
theorem findIdx?_of_splitDot? {column : String} {label rest : List Char}
    (h : splitDot? (nameOf (s.label, column)).toList = some (label, rest)) :
    (p.slots.findIdx? fun t => t.label = String.ofList label) = none := by
  rw [List.findIdx?_eq_none_iff]
  intro t ht
  rw [decide_eq_false_iff_not]
  intro he
  have hname := eq_of_splitDot? h
  rw [toList_nameOf, ← String.toList_ofList (l := label), ← he] at hname
  exact (hp.plain s (List.mem_of_getElem? hs)).append_ne_dotted (hp.plain t ht) _ _ hname

/-- No slot but the one with the label is a candidate for the name. -/
theorem best?_candidates (column : String) :
    best? (p.slots.zipIdx.filterMap fun (t, j) =>
      candidate? (nameOf (s.label, column)).toList t j) =
        some ⟨i, (s.model.fieldByColumn? column).isSome, s.label.length, column⟩ := by
  refine best?_eq_some ?_ fun d hd => ?_
  · refine List.mem_filterMap.mpr ⟨(s, i), List.mk_mem_zipIdx_iff_getElem?.mpr hs, ?_⟩
    exact candidate?_eq_some.mpr ⟨column.toList, toList_nameOf _, by simp⟩
  · obtain ⟨⟨t, j⟩, ht, hd⟩ := List.mem_filterMap.mp hd
    obtain ⟨rest, hname, rfl⟩ := candidate?_eq_some.mp hd
    have ht := List.mk_mem_zipIdx_iff_getElem?.mp ht
    rw [toList_nameOf] at hname
    have hlabel := (hp.plain s (List.mem_of_getElem? hs)).eq_of_append
      (hp.plain t (List.mem_of_getElem? ht)) hname
    obtain ⟨rfl, rfl⟩ := hp.slot_eq hs ht hlabel
    obtain ⟨-, rfl⟩ := List.cons.inj (List.append_cancel_left hname)
    simp

/-- The name of a column under the label of a slot is resolved to the slot and the column. -/
theorem resolve_nameOf (column : String) : resolve p (nameOf (s.label, column)) = (i, column) := by
  have hbest := best?_candidates hp hs column
  unfold resolve
  cases hsplit : splitDot? (nameOf (s.label, column)).toList with
  | none => simp [hbest]
  | some parts => simp [findIdx?_of_splitDot? hp hs hsplit, hbest]

theorem target_nameOf {columns : List (String × String)} {k : Nat} {column : String}
    (hk : columns[k]? = some (s.label, column)) :
    (ofColumns p (columns.map nameOf)).targets[k]? = some (i, s.model.toField column) := by
  simp [ofColumns, hk, resolve_nameOf hp hs, Plan.model?, hs]

/-- A row is split into the values of each slot, under the fields of their columns. -/
theorem split_nameOf {columns : List (String × String)}
    (hcolumns : ∀ c ∈ columns, c.1 ∈ p.slots.map Slot.label) (values : List Value) :
    ((ofColumns p (columns.map nameOf)).split values)[i]? =
      some (Record.ofFields ((columns.zip values).filterMap fun cell =>
        (s.fieldOf? cell.1).map (·, cell.2))) := by
  have hlt : i < p.slots.length := (List.getElem?_eq_some_iff.mp hs).1
  unfold split
  dsimp only [ofColumns]
  rw [List.getElem?_map, List.getElem?_range hlt, Option.map_some, List.map_map,
    List.zip_map_left, List.filterMap_map]
  congr 2
  refine List.filterMap_congr fun cell hcell => ?_
  obtain ⟨⟨label, column⟩, value⟩ := cell
  obtain ⟨t, ht, rfl⟩ := List.mem_map.mp (hcolumns _ (List.of_mem_zip hcell).1)
  obtain ⟨j, hj⟩ := List.mem_iff_getElem?.mp ht
  simp only [Function.comp_apply, Prod.map_apply, id_eq, resolve_nameOf hp hj, Plan.model?, hj,
    Option.map_some, Option.getD_some, Slot.fieldOf?]
  by_cases he : t.label = s.label
  · obtain ⟨rfl, rfl⟩ := hp.slot_eq hj hs he
    simp
  · have hne : j ≠ i := by
      rintro rfl
      exact he (congrArg Slot.label (Option.some.inj (hj.symm.trans hs)))
    simp [hne, he]

end

/-- The names of different columns of slots are different. -/
theorem nameOf_inj {p : Plan} (hp : p.Labelled) {c d : String × String}
    (hc : c.1 ∈ p.slots.map Slot.label) (hd : d.1 ∈ p.slots.map Slot.label)
    (h : nameOf c = nameOf d) : c = d := by
  obtain ⟨s, hs, hsc⟩ := List.mem_map.mp hc
  obtain ⟨t, ht, htd⟩ := List.mem_map.mp hd
  have hname := congrArg String.toList h
  rw [toList_nameOf, toList_nameOf] at hname
  have hlabel : c.1 = d.1 := (hsc ▸ hp.plain s hs).eq_of_append (htd ▸ hp.plain t ht) hname
  rw [hlabel] at hname
  obtain ⟨-, hcolumn⟩ := List.cons.inj (List.append_cancel_left hname)
  exact Prod.ext hlabel (String.toList_injective hcolumn)

/-- Columns of the slots of a plan, each with the label of its slot; all key columns are among
them. -/
structure Lists (p : Plan) (columns : List (String × String)) : Prop where
  declared : ∀ c ∈ columns, ∃ s ∈ p.slots, s.label = c.1 ∧ ∃ f ∈ s.model.fields,
    f.columnName = c.2
  key : ∀ s ∈ p.slots, ∀ f ∈ s.model.primaryKeyFields, (s.label, f.columnName) ∈ columns

/-- The names of columns are read back: they are unlike one another, each is resolved to the slot
and the field of its column, and a row is split into records of the values of each slot, in which
no key field is missing. -/
structure Reads (p : Plan) (columns : List (String × String)) : Prop where
  name_inj : ∀ c ∈ columns, ∀ d ∈ columns, nameOf c = nameOf d → c = d
  target : ∀ (k : Nat) (c : String × String), columns[k]? = some c →
    ∃ (i : Nat) (s : Slot) (f : Field), p.slots[i]? = some s ∧ s.label = c.1 ∧
      f ∈ s.model.fields ∧ f.columnName = c.2 ∧
      (ofColumns p (columns.map nameOf)).targets[k]? = some (i, f.name)
  record : ∀ (i : Nat) (s : Slot) (values : List Value), p.slots[i]? = some s →
    values.length = columns.length → ∃ r : Record,
      ((ofColumns p (columns.map nameOf)).split values)[i]? = some r ∧
      s.Receives (columns.zip values) r ∧
      ∀ f ∈ s.model.primaryKeyFields, r.contains f.name = true

theorem Lists.reads {p : Plan} {columns : List (String × String)} (h : Lists p columns)
    (hp : p.Labelled) (hm : ∀ s ∈ p.slots, s.model.Distinct) : Reads p columns := by
  have hlabel : ∀ c ∈ columns, c.1 ∈ p.slots.map Slot.label := by
    intro c hc
    obtain ⟨s, hs, hsc, -⟩ := h.declared c hc
    exact List.mem_map.mpr ⟨s, hs, hsc⟩
  refine ⟨fun c hc d hd => nameOf_inj hp (hlabel c hc) (hlabel d hd), ?_, ?_⟩
  · intro k c hk
    obtain ⟨s, hs, hsc, f, hf, hfc⟩ := h.declared c (List.mem_of_getElem? hk)
    obtain ⟨i, hi⟩ := List.mem_iff_getElem?.mp hs
    have hkf : columns[k]? = some (s.label, f.columnName) := by rw [hk, hsc, hfc]
    refine ⟨i, s, f, hi, hsc, hf, hfc, ?_⟩
    rw [target_nameOf hp hi hkf, (hm s hs).toField_columnName hf]
  · intro i s values hi hlength
    have hs := List.mem_of_getElem? hi
    have hkeys : OrderedMap.keys (columns.zip values) = columns :=
      List.map_fst_zip (Nat.le_of_eq hlength.symm)
    have hdeclared : ∀ c ∈ OrderedMap.keys (columns.zip values), c.1 = s.label →
        ∃ g ∈ s.model.fields, g.columnName = c.2 := by
      intro c hc hcs
      obtain ⟨t, ht, htc, hfield⟩ := h.declared c (hkeys ▸ hc)
      obtain ⟨j, hj⟩ := List.mem_iff_getElem?.mp ht
      obtain ⟨rfl, rfl⟩ := hp.slot_eq hi hj (hcs.symm.trans htc.symm)
      exact hfield
    have hreceives := Slot.receives (hm s hs) hdeclared
    refine ⟨_, split_nameOf hp hi hlabel values, hreceives, fun f hf => ?_⟩
    refine hreceives.contains (Model.mem_fields_of_mem_primaryKeyFields hf) ?_
    rw [hkeys]
    exact h.key s hs f hf

end Layout
end RelMap
