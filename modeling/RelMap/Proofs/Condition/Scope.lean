import RelMap.Proofs.Condition.Template

/-! Conditions in several scopes. The values that a condition binds are the same in all of them. -/
namespace RelMap

theorem Lookup.args_render (column : String) (lookup : Lookup) :
    (lookup.render column).args = lookup.operands := by
  rw [← sql_template, ← values_template column lookup]
  rfl

theorem Sql.args_conjunction (parts : List Sql) :
    (conjunction parts).args = (nonEmpty parts).flatMap Sql.args := by
  unfold conjunction
  split
  · next part hsingle => simp [hsingle]
  · rfl

namespace Condition

/-- The conditions that ask for something. -/
def asking (conditions : List Condition) : List Condition := conditions.filter fun c => !c.isEmpty

mutual
/-- The values that a condition binds: those of its leaves, apart from the parts under it that ask
for nothing. -/
def arguments : Condition → List Value
  | .compare comparison => comparison.lookup.operands
  | .all conditions => argumentsOfAll conditions
  | .any conditions => argumentsOfAll conditions
  | .not condition => if condition.isEmpty then [] else arguments condition
  | .raw _ args => args

def argumentsOfAll : List Condition → List Value
  | [] => []
  | condition :: rest =>
    (if condition.isEmpty then [] else arguments condition) ++ argumentsOfAll rest
end

theorem argumentsOfAll_eq_flatMap (conditions : List Condition) :
    argumentsOfAll conditions = (asking conditions).flatMap arguments := by
  induction conditions with
  | nil => rfl
  | cons c conditions ih =>
    unfold asking at ih ⊢
    cases hempty : c.isEmpty <;> simp [argumentsOfAll, hempty, ih]

theorem anyMentionsOther_eq_any (model : String) (conditions : List Condition) :
    anyMentionsOther model conditions = conditions.any (mentionsOther model) := by
  induction conditions with
  | nil => rfl
  | cons c conditions ih => rw [anyMentionsOther, List.any_cons, ih]

variable {s : Scope}

private theorem args_nonEmpty_of_mem {conditions : List Condition} {parts : List Sql}
    (hmem : ∀ c ∈ conditions, ∀ {sql}, c.render s = .ok sql → sql.args = c.arguments)
    (h : renderAll s conditions = .ok parts) :
    (Sql.nonEmpty parts).flatMap Sql.args = argumentsOfAll conditions := by
  rw [renderAll_eq_mapM] at h
  -- A part has no text when its condition asks for nothing, and only then.
  have hasking := nonEmpty_of_forall₂ (forall₂_of_mapM_eq_ok h)
  have hargs : (asking conditions).map arguments = (Sql.nonEmpty parts).map Sql.args :=
    map_eq_of_forall₂ hasking fun c hc part hrender =>
      (hmem c (List.mem_of_mem_filter hc) hrender).symm
  rw [argumentsOfAll_eq_flatMap, List.flatMap_def, List.flatMap_def, hargs]

/-- The arguments of a condition are told by its tree alone. -/
theorem render_args {c : Condition} {sql : Sql} (h : c.render s = .ok sql) :
    sql.args = c.arguments := by
  induction c generalizing sql with
  | compare comparison =>
    obtain ⟨column, -, h⟩ := bind_eq_ok.mp h
    obtain rfl := pure_eq_ok.mp h
    exact comparison.lookup.args_render column
  | all conditions ih | any conditions ih =>
    obtain ⟨parts, hparts, h⟩ := bind_eq_ok.mp h
    obtain rfl := pure_eq_ok.mp h
    exact args_nonEmpty_of_mem ih hparts
  | not condition ih =>
    obtain ⟨inner, hinner, h⟩ := bind_eq_ok.mp h
    obtain rfl := pure_eq_ok.mp h
    have hempty := render_text_eq_empty_iff hinner
    rw [arguments]
    by_cases htext : inner.text = ""
    · simp [htext, hempty.mp htext]
    · have hasks : condition.isEmpty = false := by simpa [hempty] using htext
      simp [htext, hasks, ih hinner]
  | raw text args =>
    obtain rfl := Except.ok.inj h
    rfl

theorem conjunction_args {conditions : List Condition} {filter : Sql}
    (h : conjunction s conditions = .ok filter) : filter.args = argumentsOfAll conditions := by
  obtain ⟨parts, hparts, h⟩ := bind_eq_ok.mp h
  obtain rfl := pure_eq_ok.mp h
  rw [Sql.args_conjunction]
  exact args_nonEmpty_of_mem (fun c _ _ => render_args) hparts

end Condition

end RelMap
