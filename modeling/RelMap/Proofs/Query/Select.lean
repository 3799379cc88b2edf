import RelMap.Proofs.Hydration.Layout
import RelMap.Proofs.Hydration.Plan
import RelMap.Proofs.Join.Include
import RelMap.Proofs.Query.Parts
import RelMap.Proofs.Text.LetterCase

/-! The columns that a select with joins returns. Their names are read back by the layout of the
plan of its joins. -/
namespace RelMap

/-- The label of a model without a dot in its name is plain: it is the small form of one
character. -/
theorem Query.ofModel_label_plain {mapper : Mapper} {model : String} (hdot : '.' ∉ model.toList) :
    Label.Plain (ofModel mapper model).label := by
  unfold ofModel
  dsimp only
  cases hmodel : model.toList with
  | nil => exact ⟨by decide, by decide, by decide⟩
  | cons c rest =>
    rw [hmodel] at hdot
    dsimp only
    refine ⟨?_, ?_, ?_⟩ <;> rw [String.toList_ofList]
    · exact Text.lowerChar_ne_nil c
    · intro h
      obtain rfl := Text.eq_of_mem_lowerChar (by decide) h
      exact hdot List.mem_cons_self
    · intro h
      obtain rfl := Text.eq_of_mem_lowerChar (by decide) h
      rfl

namespace Planner.Covers

variable {g : Registry} {root rootLabel : String} {kind : JoinKind} {seen : List (List String)}
  {planner : Planner} (hc : planner.Covers g root rootLabel kind seen)
include hc

theorem isHydrated_eq {j : Join} (hj : j ∈ planner.joins) : j.isHydrated = !j.isJunction := by
  cases hjunction : j.isJunction with
  | true =>
    have hnone : j.model.isSome = false := by simpa [Join.isJunction] using hjunction
    simp [Join.isHydrated, hnone]
  | false =>
    obtain ⟨r, target, hmodel, hrelation, -⟩ := hc.exists_target hj hjunction
    simp [Join.isHydrated, hmodel, hrelation]

/-- There is a plan for the joins of a planner that has been led along paths. -/
theorem exists_plan {m : Model} (hm : g.model root = .ok m) :
    ∃ p, Plan.ofJoins g root rootLabel planner.joins = .ok p := by
  refine Plan.exists_ofJoins hm hc.consistent.precedes hc.consistent.root_path hc.allLookBack ?_
  intro j hj hjunction
  obtain ⟨r, target, hmodel, -, htarget, -⟩ := hc.exists_target hj hjunction
  exact ⟨by rw [hc.isHydrated_eq hj, hjunction]; rfl, r.model, target, hmodel, htarget⟩

theorem slotLabels_nodup {p : Plan} (hof : p.Of g root rootLabel planner.joins) :
    (p.slots.map Slot.label).Nodup := by
  rw [hof.labels_eq]
  exact hc.consistent.labels_nodup.sublist
    ((List.filter_sublist.map Join.label).cons_cons rootLabel)

/-- The slots of the plan have plain labels of their own. -/
theorem labelled (hg : g.Separable) (hroot : Label.Plain rootLabel) {p : Plan}
    (hof : p.Of g root rootLabel planner.joins) : p.Labelled where
  nodup := hc.slotLabels_nodup hof
  plain s hs := by
    rcases hof.root_or_mem_tail hs with ⟨-, hlabel⟩ | hs
    · rw [hlabel]
      exact hroot
    · obtain ⟨j, hj, hrealizes⟩ := hof.exists_join hs
      obtain ⟨r, target, -, -, htarget, htable⟩ := hc.exists_target hj hrealizes.isJunction_eq
      obtain ⟨n, hlabel⟩ := hc.consistent.label_eq j hj
      rw [hrealizes.label_eq, hlabel, htable]
      exact Label.candidate_plain (hg.table_dot r.model target htarget) n

end Planner.Covers

namespace Select

variable {s : Select}

/-- Whatever else a statement says, it selects the columns that are returned, from the joins that
are planned. -/
theorem statement_eq_ok {st : SelectStatement} (h : s.statement = .ok st) :
    ∃ model distinct output source, s.query.mapper.registry.model s.query.model = .ok model ∧
      s.query.planJoins = .ok st.joins ∧ s.distinctSql = .ok distinct ∧
      s.outputSql model st.joins = .ok output ∧
      st.sql.text = s.query.mapper.dialect.finalize
        ("SELECT " ++ distinct ++ output ++ " FROM " ++ source) := by
  obtain ⟨model, distinct, output, _, _, _, _, _, hparts⟩ := statement_parts h
  exact ⟨model, distinct, output, _, hparts.model_eq, hparts.joins_eq, hparts.distinct_eq,
    hparts.output_eq, congrArg Sql.text hparts.sql_eq⟩

theorem ownColumns_declared {model : Model} {own : List String}
    (h : s.ownColumns model = .ok own) {column : String} (hcolumn : column ∈ own) :
    ∃ f ∈ model.fields, f.columnName = column := by
  unfold ownColumns at h
  dsimp only at h
  split_ifs at h
  · obtain rfl := pure_eq_ok.mp h
    exact List.mem_map.mp hcolumn
  · obtain ⟨named, hnamed, h⟩ := bind_eq_ok.mp h
    obtain rfl := pure_eq_ok.mp h
    rcases List.mem_append.mp hcolumn with hkey | hlisted
    · obtain ⟨f, hf, rfl⟩ := List.mem_map.mp hkey
      exact ⟨f, Model.mem_fields_of_mem_primaryKeyFields (List.mem_of_mem_filter hf), rfl⟩
    · obtain ⟨name, -, hname⟩ := exists_left_of_forall₂ (forall₂_of_mapM_eq_ok hnamed) hlisted
      obtain ⟨f, hf, rfl⟩ := Model.columnName_eq_ok.mp hname
      exact ⟨f, (Model.mem_fields_of_field? hf).1, rfl⟩

/-- The key columns are returned even when the listed fields leave them out. -/
theorem key_mem_ownColumns {model : Model} (hm : model.Distinct) {own : List String}
    (h : s.ownColumns model = .ok own) {f : Field} (hf : f ∈ model.primaryKeyFields) :
    f.columnName ∈ own := by
  have hfield := Model.mem_fields_of_mem_primaryKeyFields hf
  unfold ownColumns at h
  dsimp only at h
  split_ifs at h
  · obtain rfl := pure_eq_ok.mp h
    exact List.mem_map_of_mem hfield
  · obtain ⟨named, hnamed, h⟩ := bind_eq_ok.mp h
    obtain rfl := pure_eq_ok.mp h
    by_cases hlisted : f.name ∈ s.listedFields
    · obtain ⟨column, hcolumn, hname⟩ :=
        exists_right_of_forall₂ (forall₂_of_mapM_eq_ok hnamed) hlisted
      have hown : model.columnName f.name = .ok f.columnName :=
        Model.columnName_eq_ok.mpr ⟨f, hm.field?_name hfield, rfl⟩
      rw [Except.ok.inj (hown.symm.trans hname)]
      exact List.mem_append_right _ hcolumn
    · refine List.mem_append_left _ (List.mem_map_of_mem (List.mem_filter.mpr ⟨hf, ?_⟩))
      simpa using hlisted

/-- All columns of the slots of joined models are returned. -/
theorem joinedColumns_eq {joins : List Join} {slots : List Slot}
    (h : List.Forall₂ (fun j slot => slot.Realizes s.query.mapper.registry j)
      (joins.filter fun j => !j.isJunction) slots) :
    s.joinedColumns joins = .ok (slots.flatMap fun slot =>
      slot.model.columnNames.map (labelledColumn s.query.mapper.dialect slot.label)) := by
  unfold joinedColumns
  dsimp only
  rw [bind_eq_ok]
  induction joins generalizing slots with
  | nil =>
    cases h
    exact ⟨[], rfl, rfl⟩
  | cons j joins ih =>
    rw [List.mapM_cons]
    cases hjunction : j.isJunction with
    | true =>
      rw [List.filter_cons_of_neg (by simp [hjunction])] at h
      obtain ⟨groups, hgroups, hflat⟩ := ih h
      have hnone : j.model = none := by simpa [Join.isJunction] using hjunction
      rw [hgroups, hnone]
      exact ⟨[] :: groups, rfl, hflat⟩
    | false =>
      rw [List.filter_cons_of_pos (by simp [hjunction])] at h
      cases h with
      | cons hfirst hrest =>
        obtain ⟨groups, hgroups, hflat⟩ := ih hrest
        obtain ⟨name, hname, hmodel⟩ := hfirst.model_eq
        rw [hgroups, hname]
        dsimp only
        rw [hmodel, ← hfirst.label_eq]
        refine ⟨_ :: groups, rfl, ?_⟩
        rw [pure_eq_ok] at hflat ⊢
        rw [List.flatten_cons, List.flatMap_cons, hflat]

/-- What a select with joins returns: the columns of its own model that are wanted, and all of each
joined model, under names that the layout of the plan of its joins reads back. -/
structure Returns (s : Select) (st : SelectStatement) (columns : List (String × String))
    (p : Plan) : Prop where
  root : ∃ first own, p.slots.head? = some first ∧ first.label = s.query.label ∧
    s.query.mapper.registry.model s.query.model = .ok first.model ∧
    s.ownColumns first.model = .ok own ∧
    columns = own.map (s.query.label, ·) ++
      p.slots.tail.flatMap fun slot => slot.model.columnNames.map (slot.label, ·)
  text_eq : ∃ distinct source, s.distinctSql = .ok distinct ∧
    st.sql.text = s.query.mapper.dialect.finalize ("SELECT " ++ distinct ++
      Text.joinWith ", " (columns.map fun c =>
        s.query.mapper.dialect.quote c.1 ++ "." ++ s.query.mapper.dialect.quote c.2 ++ " AS " ++
          s.query.mapper.dialect.quote (Layout.nameOf c)) ++
      " FROM " ++ source)
  plan_eq : Plan.ofJoins s.query.mapper.registry s.query.model s.query.label st.joins = .ok p
  joined : List.Forall₂ (fun j slot => slot.Realizes s.query.mapper.registry j)
    (st.joins.filter fun j => !j.isJunction) p.slots.tail
  labels_nodup : (p.slots.map Slot.label).Nodup
  reads : Layout.Reads p columns

/-- The columns of a select are listed by the plan of its joins. -/
theorem lists_columns {joins : List Join} {p : Plan} {model : Model} {own : List String}
    (hg : s.query.mapper.registry.Separable)
    (hof : p.Of s.query.mapper.registry s.query.model s.query.label joins)
    (hmodel : s.query.mapper.registry.model s.query.model = .ok model)
    (hown : s.ownColumns model = .ok own) :
    Layout.Lists p (own.map (s.query.label, ·) ++
      p.slots.tail.flatMap fun slot => slot.model.columnNames.map (slot.label, ·)) where
  declared c hc := by
    rcases List.mem_append.mp hc with hc | hc
    · obtain ⟨column, hcolumn, rfl⟩ := List.mem_map.mp hc
      obtain ⟨first, rest, hcons, hfirst, hlabel, -⟩ := hof.exists_cons
      obtain rfl := Except.ok.inj (hmodel.symm.trans hfirst)
      exact ⟨first, hcons ▸ List.mem_cons_self, hlabel, ownColumns_declared hown hcolumn⟩
    · obtain ⟨slot, hslot, hc⟩ := List.mem_flatMap.mp hc
      obtain ⟨column, hcolumn, rfl⟩ := List.mem_map.mp hc
      exact ⟨slot, List.mem_of_mem_tail hslot, rfl, List.mem_map.mp hcolumn⟩
  key slot hslot f hf := by
    rcases hof.root_or_mem_tail hslot with ⟨hm, hlabel⟩ | hslot
    · obtain rfl := Except.ok.inj (hmodel.symm.trans hm)
      rw [hlabel]
      have hcolumn := key_mem_ownColumns (hg.distinct _ _ hmodel) hown hf
      exact List.mem_append_left _ (List.mem_map_of_mem hcolumn)
    · have hcolumn : f.columnName ∈ slot.model.columnNames :=
        List.mem_map_of_mem (Model.mem_fields_of_mem_primaryKeyFields hf)
      exact List.mem_append_right _
        (List.mem_flatMap.mpr ⟨slot, hslot, List.mem_map_of_mem hcolumn⟩)

theorem outputSql_eq_ok {model : Model} {joins : List Join} {slots : List Slot} {output : String}
    (hjoins : joins ≠ [])
    (hslots : List.Forall₂ (fun j slot => slot.Realizes s.query.mapper.registry j)
      (joins.filter fun j => !j.isJunction) slots)
    (h : s.outputSql model joins = .ok output) :
    ∃ own, s.ownColumns model = .ok own ∧
      output = Text.joinWith ", " ((own.map (s.query.label, ·) ++
        slots.flatMap fun slot => slot.model.columnNames.map (slot.label, ·)).map fun c =>
          labelledColumn s.query.mapper.dialect c.1 c.2) := by
  unfold outputSql at h
  dsimp only at h
  rw [if_neg (by simpa using hjoins), joinedColumns_eq hslots] at h
  obtain ⟨own, hown, h⟩ := bind_eq_ok.mp h
  obtain rfl := pure_eq_ok.mp h
  refine ⟨own, hown, ?_⟩
  rw [List.map_append, List.map_map, List.map_flatMap]
  simp only [List.map_map, Function.comp_def]

/-- The columns of every select with joins are read back, whatever labels its tables are given and
whichever fields it lists. -/
theorem statement_returns {st : SelectStatement}
    (hlabel : s.query.label = (Query.ofModel s.query.mapper s.query.model).label)
    (hg : s.query.mapper.registry.Separable) (h : s.statement = .ok st) (hjoins : st.joins ≠ []) :
    ∃ columns p, s.Returns st columns p := by
  obtain ⟨model, distinct, output, source, hmodel, hplanned, hdistinct, houtput, htext⟩ :=
    statement_eq_ok h
  obtain ⟨planner, hplanner, hc⟩ := Query.planJoins_covers hplanned
  obtain ⟨p, hp⟩ := hc.exists_plan hmodel
  have hof := Plan.ofJoins_of hc.consistent.precedes hc.consistent.root_path hp
  have hroot : Label.Plain s.query.label :=
    hlabel ▸ Query.ofModel_label_plain (hg.name_dot _ _ hmodel)
  have hlabelled := hc.labelled hg hroot hof
  rw [hplanner] at hp hof
  have hjoined := hof.joined
  rw [List.filter_congr fun j hj => hc.isHydrated_eq (hplanner ▸ hj)] at hjoined
  obtain ⟨own, hown, hcolumns⟩ := outputSql_eq_ok hjoins hjoined houtput
  obtain ⟨first, hfirst, hfirstModel, hfirstLabel, -⟩ := hof.root
  obtain rfl := Except.ok.inj (hmodel.symm.trans hfirstModel)
  refine ⟨_, p, ⟨first, own, hfirst, hfirstLabel, hmodel, hown, rfl⟩,
    ⟨distinct, source, hdistinct, ?_⟩, hp, hjoined, hlabelled.nodup, ?_⟩
  · rw [htext, hcolumns]
    rfl
  · refine (lists_columns hg hof hmodel hown).reads hlabelled fun slot hslot => ?_
    obtain ⟨name, hname⟩ := hof.exists_model hslot
    exact hg.distinct name slot.model hname

/-- Posts with their tags, of which only the author is listed. -/
def postsWithTags : Select :=
  { query := (Query.ofModel { registry := .blog, dialect := .sqlite } "Post").includePath "tags"
    fields := ["author"] }

theorem statement_returns_postsWithTags : ∃ st, postsWithTags.statement = .ok st ∧
    st.joins.map Join.label = ["pt", "t"] ∧
    ∃ columns p, postsWithTags.Returns st columns p := by
  have hplanned : (postsWithTags.statement.map fun st => st.joins.map Join.label).toOption =
      some ["pt", "t"] := by
    decide +kernel
  cases hst : postsWithTags.statement with
  | error e => simp [hst, Except.map, Except.toOption] at hplanned
  | ok st =>
    rw [hst] at hplanned
    have hlabels : st.joins.map Join.label = ["pt", "t"] := Option.some.inj hplanned
    have hjoins : st.joins ≠ [] := by
      rintro he
      simp [he] at hlabels
    exact ⟨st, rfl, hlabels, statement_returns rfl
      (Registry.separable_of_models (by decide +kernel)) hst hjoins⟩

end Select

end RelMap
