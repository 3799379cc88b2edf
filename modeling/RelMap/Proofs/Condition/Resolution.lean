import RelMap.Proofs.Condition.Scope
import RelMap.Proofs.Schema.Model

/-! The models that a condition names. A condition can be written where each of its comparisons is
on a registered model in reach, and otherwise the first one that is not is the reason. -/
namespace RelMap

namespace Scope

/-- The model that a field belongs to. -/
def modelOf (s : Scope) (field : FieldRef) : String := field.model.getD s.model

/-- A model that can be named: it is registered, and it is the scope's own or a joined one. -/
structure Resolves (s : Scope) (model : String) : Prop where
  registered : s.registry.contains model = true
  reached : model = s.model ∨ model ∈ OrderedMap.keys s.joined

/-- Why a model cannot be named. That it is not registered comes first. -/
def refusal (s : Scope) (model : String) : Error :=
  if s.registry.contains model then .invalidQuery (.conditionNotJoined model s.model)
  else .unknownModel model

/-- A column under a label, if there is one. -/
def qualified (s : Scope) (label column : String) : String :=
  if label.isEmpty then s.quote column else s.quote label ++ "." ++ s.quote column

variable {s : Scope} {model : String} {field : FieldRef}

theorem labelOf_of_reached (h : model = s.model ∨ model ∈ OrderedMap.keys s.joined) :
    ∃ label, s.labelOf model = .ok label := by
  unfold labelOf
  split_ifs with hmodel
  · exact ⟨s.label, rfl⟩
  · have hjoined := OrderedMap.find?_isSome_iff.mpr (h.resolve_left hmodel)
    obtain ⟨label, hlabel⟩ := Option.isSome_iff_exists.mp hjoined
    exact ⟨label, by rw [hlabel]⟩

theorem labelOf_of_not_reached (h : ¬(model = s.model ∨ model ∈ OrderedMap.keys s.joined)) :
    s.labelOf model = .error (.invalidQuery (.conditionNotJoined model s.model)) := by
  obtain ⟨hmodel, hjoined⟩ := not_or.mp h
  rw [← OrderedMap.find?_isSome_iff, Option.not_isSome_iff_eq_none] at hjoined
  rw [labelOf, if_neg hmodel, hjoined]

theorem columnFor_eq {m : Model} {label : String} (hm : s.registry.model (s.modelOf field) = .ok m)
    (hlabel : s.labelOf (s.modelOf field) = .ok label) :
    s.columnFor field = .ok (s.qualified label (m.toColumn field.name)) := by
  unfold modelOf at hm hlabel
  rw [columnFor, Registry.fieldToColumn_eq hm, ok_bind, hlabel]
  rfl

theorem columnFor_of_resolves (h : s.Resolves (s.modelOf field)) :
    ∃ column, s.columnFor field = .ok column := by
  obtain ⟨m, hm⟩ := Registry.model_of_contains h.registered
  obtain ⟨label, hlabel⟩ := labelOf_of_reached h.reached
  exact ⟨_, columnFor_eq hm hlabel⟩

theorem columnFor_of_not_resolves (h : ¬s.Resolves (s.modelOf field)) :
    s.columnFor field = .error (s.refusal (s.modelOf field)) := by
  unfold refusal
  split_ifs with hregistered
  · obtain ⟨m, hm⟩ := Registry.model_of_contains hregistered
    have hlabel := labelOf_of_not_reached fun hreached => h ⟨hregistered, hreached⟩
    unfold modelOf at hm hlabel ⊢
    rw [columnFor, Registry.fieldToColumn_eq hm, ok_bind, hlabel]
    rfl
  · have hm := Registry.model_of_not_contains (by simpa using hregistered)
    unfold modelOf at hm ⊢
    rw [columnFor, Registry.fieldToColumn, hm]
    rfl

theorem exists_columnFor_iff :
    (∃ column, s.columnFor field = .ok column) ↔ s.Resolves (s.modelOf field) := by
  refine ⟨fun ⟨column, hcolumn⟩ => ?_, columnFor_of_resolves⟩
  by_contra h
  rw [columnFor_of_not_resolves h] at hcolumn
  cases hcolumn

theorem columnFor_eq_error {e : Error} : s.columnFor field = .error e ↔
    ¬s.Resolves (s.modelOf field) ∧ e = s.refusal (s.modelOf field) := by
  constructor
  · intro he
    have h : ¬s.Resolves (s.modelOf field) := by
      rw [← exists_columnFor_iff, he]
      simp
    exact ⟨h, Except.error.inj (he.symm.trans (columnFor_of_not_resolves h))⟩
  · rintro ⟨h, rfl⟩
    exact columnFor_of_not_resolves h

/-- The column of a field that can be named. -/
theorem columnFor_eq_ok {column : String} : s.columnFor field = .ok column ↔
    ∃ m label, s.registry.model (s.modelOf field) = .ok m ∧
      s.labelOf (s.modelOf field) = .ok label ∧
      column = s.qualified label (m.toColumn field.name) := by
  constructor
  · intro h
    have hresolves := exists_columnFor_iff.mp ⟨column, h⟩
    obtain ⟨m, hm⟩ := Registry.model_of_contains hresolves.registered
    obtain ⟨label, hlabel⟩ := labelOf_of_reached hresolves.reached
    exact ⟨m, label, hm, hlabel, Except.ok.inj (h.symm.trans (columnFor_eq hm hlabel))⟩
  · rintro ⟨m, label, hm, hlabel, rfl⟩
    exact columnFor_eq hm hlabel

/-- A field of the scope's own model is found under the label of that model. -/
theorem columnFor_own {m : Model} (hm : s.registry.model s.model = .ok m)
    (hown : s.modelOf field = s.model) :
    s.columnFor field = .ok (s.qualified s.label (m.toColumn field.name)) :=
  columnFor_eq (hown ▸ hm) (by rw [hown, labelOf, if_pos rfl])

end Scope

namespace Condition

/-- The comparison that a leaf is, unless it is a fragment of SQL. -/
def comparison? : Condition → Option Comparison
  | .compare comparison => some comparison
  | _ => none

/-- The comparisons of a condition from left to right. -/
def comparisons (c : Condition) : List Comparison := c.leaves.filterMap comparison?

theorem comparisons_of_leaves {c : Condition} {conditions : List Condition}
    (h : c.leaves = leavesOfAll conditions) : c.comparisons = conditions.flatMap comparisons := by
  rw [comparisons, h, leavesOfAll_eq_flatMap, List.filterMap_flatMap]
  rfl

variable {s : Scope}

/-- Writing conditions one after the other ends like resolving their comparisons. -/
private theorem ending_renderAll_of_mem {conditions : List Condition}
    (h : ∀ c ∈ conditions, ending (c.render s) =
      ending (c.comparisons.mapM fun q => s.columnFor q.field)) :
    ending (renderAll s conditions) =
      ending ((conditions.flatMap comparisons).mapM fun q => s.columnFor q.field) := by
  rw [renderAll_eq_mapM]
  induction conditions with
  | nil => rfl
  | cons c conditions ih =>
    rw [List.mapM_cons, List.flatMap_cons, List.mapM_append]
    refine ending_bind_congr (h c List.mem_cons_self) fun sql columns => ?_
    rw [ending_bind_pure, ending_bind_pure]
    exact ih fun d hd => h d (List.mem_cons_of_mem c hd)

/-- Writing a condition ends like resolving its comparisons from left to right. -/
theorem ending_render (s : Scope) (c : Condition) :
    ending (c.render s) = ending (c.comparisons.mapM fun q => s.columnFor q.field) := by
  induction c with
  | compare comparison =>
    have hleaf : comparisons (.compare comparison) = [comparison] := rfl
    rw [hleaf, List.mapM_cons, List.mapM_nil]
    exact (ending_bind_pure _ _).trans (ending_bind_pure _ _).symm
  | all conditions ih | any conditions ih =>
    rw [comparisons_of_leaves rfl, ← ending_renderAll_of_mem ih]
    exact ending_bind_pure _ _
  | not condition ih => exact (ending_bind_pure _ _).trans ih
  | raw sql args => rfl

/-- Writing conditions ends like resolving all of their comparisons. -/
theorem ending_conjunction (s : Scope) (conditions : List Condition) :
    ending (conjunction s conditions) =
      ending ((conditions.flatMap comparisons).mapM fun q => s.columnFor q.field) :=
  (ending_bind_pure _ _).trans (ending_renderAll_of_mem fun c _ => ending_render s c)

theorem exists_render_iff {c : Condition} : (∃ sql, c.render s = .ok sql) ↔
    ∀ q ∈ c.comparisons, s.Resolves (s.modelOf q.field) := by
  rw [exists_ok_congr (ending_render s c), exists_mapM_eq_ok_iff]
  simp only [Scope.exists_columnFor_iff]

/-- A condition is refused for the first comparison that does not resolve. -/
theorem render_eq_error {c : Condition} {e : Error} : c.render s = .error e ↔
    ∃ before q after, c.comparisons = before ++ q :: after ∧
      (∀ p ∈ before, s.Resolves (s.modelOf p.field)) ∧
      ¬s.Resolves (s.modelOf q.field) ∧ e = s.refusal (s.modelOf q.field) := by
  rw [eq_error_congr (ending_render s c), mapM_eq_error]
  simp only [Scope.exists_columnFor_iff, Scope.columnFor_eq_error]

private theorem anyMentionsOther_eq_false_of_mem {conditions : List Condition}
    (hmem : ∀ c ∈ conditions, c.mentionsOther s.model = false ↔
      ∀ q ∈ c.comparisons, s.modelOf q.field = s.model) :
    anyMentionsOther s.model conditions = false ↔
      ∀ q ∈ conditions.flatMap comparisons, s.modelOf q.field = s.model := by
  simp only [anyMentionsOther_eq_any, List.any_eq_false, Bool.not_eq_true, List.mem_flatMap]
  constructor
  · rintro h q ⟨c, hc, hq⟩
    exact (hmem c hc).mp (h c hc) q hq
  · intro h c hc
    exact (hmem c hc).mpr fun q hq => h q ⟨c, hc, hq⟩

/-- A condition names no other model when all of its comparisons are on the model at hand. -/
theorem mentionsOther_eq_false {c : Condition} : c.mentionsOther s.model = false ↔
    ∀ q ∈ c.comparisons, s.modelOf q.field = s.model := by
  induction c with
  | compare comparison =>
    have hleaf : comparisons (.compare comparison) = [comparison] := rfl
    rw [hleaf, List.forall_mem_singleton, mentionsOther, Scope.modelOf]
    cases comparison.field.model <;> simp
  | all conditions ih | any conditions ih =>
    rw [comparisons_of_leaves rfl]
    exact anyMentionsOther_eq_false_of_mem ih
  | not condition ih => exact ih
  | raw sql args => simp [mentionsOther, comparisons, leaves, comparison?]

mutual
/-- The SQL of a condition, given the column of every field. -/
def written (column : FieldRef → String) : Condition → Sql
  | .compare comparison => comparison.lookup.render (column comparison.field)
  | .all conditions => Sql.group " AND " (writtenAll column conditions)
  | .any conditions => Sql.group " OR " (writtenAll column conditions)
  | .not condition =>
    let sql := written column condition
    if sql.text.isEmpty then ⟨"", []⟩ else ⟨"NOT " ++ Sql.parenthesized sql.text, sql.args⟩
  | .raw sql args => ⟨sql, args⟩

def writtenAll (column : FieldRef → String) : List Condition → List Sql
  | [] => []
  | condition :: rest => written column condition :: writtenAll column rest
end

variable {column : FieldRef → String}

theorem writtenAll_eq_map (conditions : List Condition) :
    writtenAll column conditions = conditions.map (written column) := by
  induction conditions with
  | nil => rfl
  | cons c conditions ih => rw [writtenAll, ih, List.map_cons]

private theorem renderAll_eq_writtenAll_of_mem {conditions : List Condition}
    (hmem : ∀ c ∈ conditions, (∀ q ∈ c.comparisons, s.columnFor q.field = .ok (column q.field)) →
      c.render s = .ok (c.written column))
    (h : ∀ q ∈ conditions.flatMap comparisons, s.columnFor q.field = .ok (column q.field)) :
    renderAll s conditions = .ok (writtenAll column conditions) := by
  rw [renderAll_eq_mapM, writtenAll_eq_map, ← mapM_ok]
  exact mapM_congr_of_mem fun c hc =>
    hmem c hc fun q hq => h q (List.mem_flatMap.mpr ⟨c, hc, hq⟩)

/-- All that a scope adds to a condition are the columns of its comparisons. -/
theorem render_eq_written {c : Condition}
    (h : ∀ q ∈ c.comparisons, s.columnFor q.field = .ok (column q.field)) :
    c.render s = .ok (c.written column) := by
  induction c with
  | compare comparison =>
    have hcolumn := h comparison (List.mem_singleton_self comparison)
    rw [render, Comparison.render, hcolumn]
    rfl
  | all conditions ih | any conditions ih =>
    rw [comparisons_of_leaves rfl] at h
    rw [render, renderAll_eq_writtenAll_of_mem ih h]
    rfl
  | not condition ih =>
    rw [render, ih h]
    rfl
  | raw sql args => rfl

theorem conjunction_eq_written {conditions : List Condition}
    (h : ∀ c ∈ conditions, ∀ q ∈ c.comparisons, s.columnFor q.field = .ok (column q.field)) :
    conjunction s conditions = .ok (Sql.conjunction (writtenAll column conditions)) := by
  rw [conjunction, renderAll_eq_writtenAll_of_mem fun _ _ => render_eq_written]
  · rfl
  · intro q hq
    obtain ⟨c, hc, hq⟩ := List.mem_flatMap.mp hq
    exact h c hc q hq

end Condition

end RelMap
