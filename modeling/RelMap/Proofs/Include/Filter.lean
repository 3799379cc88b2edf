import RelMap.Proofs.Condition.Evaluation
import RelMap.Proofs.Condition.Resolution
import RelMap.Proofs.Include.Process
import RelMap.Proofs.Join.Run

/-! Filters that name models. Records at hand are asked for the field of a comparison whatever model
it is on, where a statement would refuse a model that is out of reach. -/
namespace RelMap

/-- The comparison of the field of this name, on another model. -/
def Comparison.ownedBy (model : String) (comparison : Comparison) : Comparison :=
  { comparison with field := { comparison.field with model := some model } }

namespace Condition

mutual
/-- The same condition with every comparison on one model. -/
def ownedBy (model : String) : Condition → Condition
  | .compare comparison => .compare (comparison.ownedBy model)
  | .all conditions => .all (allOwnedBy model conditions)
  | .any conditions => .any (allOwnedBy model conditions)
  | .not condition => .not (ownedBy model condition)
  | .raw sql args => .raw sql args

def allOwnedBy (model : String) : List Condition → List Condition
  | [] => []
  | condition :: rest => ownedBy model condition :: allOwnedBy model rest
end

variable {model : String} {c : Condition} {conditions : List Condition}

theorem allOwnedBy_eq_map : allOwnedBy model conditions = conditions.map (ownedBy model) := by
  induction conditions with
  | nil => rfl
  | cons c conditions ih => rw [allOwnedBy, ih, List.map_cons]

private theorem comparisons_allOwnedBy_of_mem
    (hmem : ∀ c ∈ conditions,
      (c.ownedBy model).comparisons = c.comparisons.map (Comparison.ownedBy model)) :
    (allOwnedBy model conditions).flatMap comparisons =
      (conditions.flatMap comparisons).map (Comparison.ownedBy model) := by
  rw [allOwnedBy_eq_map, List.flatMap_map, List.map_flatMap]
  exact List.flatMap_congr hmem

theorem comparisons_ownedBy :
    (c.ownedBy model).comparisons = c.comparisons.map (Comparison.ownedBy model) := by
  induction c with
  | compare comparison => rfl
  | all conditions ih | any conditions ih =>
    rw [ownedBy, comparisons_of_leaves rfl, comparisons_of_leaves rfl]
    exact comparisons_allOwnedBy_of_mem ih
  | not condition ih => exact ih
  | raw sql args => rfl

private theorem allEmpty_allOwnedBy_of_mem
    (hmem : ∀ c ∈ conditions, (c.ownedBy model).isEmpty = c.isEmpty) :
    allEmpty (allOwnedBy model conditions) = allEmpty conditions := by
  rw [Bool.eq_iff_iff, allEmpty_iff, allEmpty_iff, allOwnedBy_eq_map, List.forall_mem_map]
  exact forall₂_congr fun c hc => by rw [hmem c hc]

theorem isEmpty_ownedBy : (c.ownedBy model).isEmpty = c.isEmpty := by
  induction c with
  | compare comparison => rfl
  | all conditions ih | any conditions ih => exact allEmpty_allOwnedBy_of_mem ih
  | not condition ih => exact ih
  | raw sql args => rfl

section
variable [Regex.Engine] {r : Record}

private theorem evaluateAll_allOwnedBy_of_mem
    (hmem : ∀ c ∈ conditions, (c.ownedBy model).evaluate r = c.evaluate r) :
    evaluateAll r (allOwnedBy model conditions) = evaluateAll r conditions := by
  induction conditions with
  | nil => rfl
  | cons c conditions ih =>
    obtain ⟨hc, hrest⟩ := List.forall_mem_cons.mp hmem
    rw [allOwnedBy, evaluateAll, evaluateAll, hc, ih hrest]

private theorem evaluateAny_allOwnedBy_of_mem
    (hmem : ∀ c ∈ conditions, (c.ownedBy model).evaluate r = c.evaluate r) :
    evaluateAny r (allOwnedBy model conditions) = evaluateAny r conditions := by
  induction conditions with
  | nil => rfl
  | cons c conditions ih =>
    obtain ⟨hc, hrest⟩ := List.forall_mem_cons.mp hmem
    rw [allOwnedBy, evaluateAny, evaluateAny, isEmpty_ownedBy, hc, ih hrest]

/-- Records at hand are not asked which model they are of. -/
theorem evaluate_ownedBy : (c.ownedBy model).evaluate r = c.evaluate r := by
  induction c with
  | compare comparison => rfl
  | all conditions ih => exact evaluateAll_allOwnedBy_of_mem ih
  | any conditions ih =>
    rw [ownedBy, evaluate, evaluate, allEmpty_allOwnedBy_of_mem fun c _ => isEmpty_ownedBy,
      evaluateAny_allOwnedBy_of_mem ih]
  | not condition ih => rw [ownedBy, evaluate, evaluate, isEmpty_ownedBy, ih]
  | raw sql args => rfl

end

section
variable {s : Scope}

private theorem renderAll_allOwnedBy_of_mem
    (hmem : ∀ c ∈ conditions, (∀ q ∈ c.comparisons, s.modelOf q.field = model) →
      (c.ownedBy model).render s = c.render s)
    (h : ∀ q ∈ conditions.flatMap comparisons, s.modelOf q.field = model) :
    renderAll s (allOwnedBy model conditions) = renderAll s conditions := by
  induction conditions with
  | nil => rfl
  | cons c conditions ih =>
    obtain ⟨hc, hrest⟩ := List.forall_mem_cons.mp hmem
    rw [List.flatMap_cons, List.forall_mem_append] at h
    rw [allOwnedBy, renderAll, renderAll, hc h.1, ih hrest h.2]

/-- A condition on one model alone can name this model in every comparison. -/
theorem render_ownedBy (h : ∀ q ∈ c.comparisons, s.modelOf q.field = model) :
    (c.ownedBy model).render s = c.render s := by
  induction c with
  | compare comparison =>
    have hmodel : comparison.field.model.getD s.model = model :=
      h comparison (List.mem_singleton_self comparison)
    simp only [ownedBy, Comparison.ownedBy, render, Comparison.render, Scope.columnFor, hmodel,
      Option.getD_some]
  | all conditions ih | any conditions ih =>
    rw [comparisons_of_leaves rfl] at h
    rw [ownedBy, render, render, renderAll_allOwnedBy_of_mem ih h]
  | not condition ih => rw [ownedBy, render, render, ih h]
  | raw sql args => rfl

end

end Condition

namespace Include

/-- The scope in which only one model is in reach. -/
def aloneScope (registry : Registry) (model : String) : Scope := { registry, model, label := "" }

variable {registry : Registry} {name : String} {m : Model} {c : Condition} {i : Include}

theorem resolves_alone {field : FieldRef} (hm : registry.model name = .ok m) :
    (aloneScope registry name).Resolves ((aloneScope registry name).modelOf field) ↔
      (aloneScope registry name).modelOf field = name := by
  constructor
  · intro h
    simpa [aloneScope, OrderedMap.keys] using h.reached
  · intro h
    rw [h]
    exact ⟨Registry.contains_of_model hm, .inl rfl⟩

/-- Where only one model is in reach, the conditions that name no other can be written. -/
theorem exists_render_alone (hm : registry.model name = .ok m) :
    (∃ sql, c.render (aloneScope registry name) = .ok sql) ↔ c.mentionsOther name = false := by
  have hmodel : (aloneScope registry name).model = name := rfl
  rw [Condition.exists_render_iff, ← hmodel, Condition.mentionsOther_eq_false]
  exact forall₂_congr fun q _ => resolves_alone hm

theorem filterable_of_rawFree [Regex.Engine] (hfree : c.rawFree = true) (hcompiles : c.Compiles)
    (hfilter : i.filter = some c) (records : List Record) : i.Filterable records := by
  intro condition hcondition r _
  obtain rfl : c = condition := Option.some.inj (hfilter.symm.trans hcondition)
  exact Condition.exists_evaluate hfree hcompiles r

/-- The same include with another filter. -/
def filteredBy (i : Include) (c : Condition) : Include := { i with filter := some c }

/-- An include reads every comparison of its filter as one on the model of the records, also where
a statement would refuse the filter for naming another model. It ends with the same records or with
the same error, and if the engine reads all patterns it keeps the records that pass. -/
theorem process_ownedBy [Regex.Engine] (hm : registry.model name = .ok m) (hfree : c.rawFree = true)
    (hfilter : i.filter = some c) (records : List Record) :
    ((∃ sql, c.render (aloneScope registry name) = .ok sql) ↔ c.mentionsOther name = false) ∧
    (∃ sql, (c.ownedBy name).render (aloneScope registry name) = .ok sql ∧
      (c.mentionsOther name = false → c.render (aloneScope registry name) = .ok sql)) ∧
    i.process m records = (i.filteredBy (c.ownedBy name)).process m records ∧
    (c.Compiles → i.process m records = .ok ((i.window (sortRecords i.orderBy
      (records.filter (i.filteredBy (c.ownedBy name)).passes))).map (i.reduced m))) := by
  have hevaluate : ∀ r, (c.ownedBy name).evaluate r = c.evaluate r :=
    fun r => Condition.evaluate_ownedBy
  refine ⟨exists_render_alone hm, ?_, ?_, fun hcompiles => ?_⟩
  · have hresolves : ∀ q ∈ (c.ownedBy name).comparisons,
        (aloneScope registry name).Resolves ((aloneScope registry name).modelOf q.field) := by
      rw [Condition.comparisons_ownedBy, List.forall_mem_map]
      exact fun q _ => (resolves_alone hm).mpr rfl
    obtain ⟨sql, hsql⟩ := Condition.exists_render_iff.mpr hresolves
    refine ⟨sql, hsql, fun hown => ?_⟩
    have hmodels : ∀ q ∈ c.comparisons, (aloneScope registry name).modelOf q.field = name :=
      Condition.mentionsOther_eq_false.mp hown
    rw [← hsql, Condition.render_ownedBy hmodels]
  · rw [process, process, keepMatching, keepMatching, hfilter, filteredBy]
    simp only [hevaluate]
    rfl
  · have hpasses : (i.filteredBy (c.ownedBy name)).passes = i.passes := by
      funext r
      simp only [passes, filteredBy, hfilter, Option.all_some, hevaluate]
    rw [hpasses]
    exact process_eq (filterable_of_rawFree hfree hcompiles hfilter records)

/-- A post with this identifier. -/
def firstPost : Condition := .compare ⟨⟨"id", some "Post"⟩, .eq (.int 1)⟩

/-- The author with this identifier, asked for as if it were a post. -/
def mistaken : Include where
  path := "author"
  filter := some firstPost

theorem process_ownedBy_mistaken :
    ∃ m results, Registry.blog.model "User" = .ok m ∧ firstPost.rawFree = true ∧
      mistaken.filter = some firstPost ∧ firstPost.Compiles ∧
      mistaken.process m [.ofFields [("id", .int 1)]] = .ok results ∧
      (mistaken.filteredBy (firstPost.ownedBy "User")).process m [.ofFields [("id", .int 1)]] =
        .ok results := by
  obtain ⟨m, hm⟩ := Registry.model_of_contains
    (show Registry.blog.contains "User" = true by decide +kernel)
  have hcompiles : firstPost.Compiles := Condition.compiles_of_lawful Regex.engine_lawful _
  obtain ⟨-, -, hequal, hkept⟩ :=
    process_ownedBy (i := mistaken) (c := firstPost) hm rfl rfl [.ofFields [("id", .int 1)]]
  exact ⟨m, _, hm, rfl, rfl, hcompiles, hkept hcompiles, hequal.symm.trans (hkept hcompiles)⟩

/-- The filter cannot be written where only users are in reach, and keeps a user. -/
theorem process_keeps_other :
    ∃ m c, Registry.blog.model "User" = .ok m ∧ mistaken.filter = some c ∧ c.rawFree = true ∧
      c.render (aloneScope .blog "User") =
        .error (.invalidQuery (.conditionNotJoined "Post" "User")) ∧
      (mistaken.process m [.ofFields [("id", .int 1)]]).map (List.map Record.fields) =
        .ok [[("id", .int 1)]] := by
  obtain ⟨m, hm⟩ := Registry.model_of_contains
    (show Registry.blog.contains "User" = true by decide +kernel)
  exact ⟨m, _, hm, rfl, rfl, rfl, rfl⟩

end Include
end RelMap
