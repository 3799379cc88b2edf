import RelMap.Proofs.Condition.Basic

/-! Conditions without their operands. The SQL of a condition is the same whatever it compares
with: operands become arguments, and only whether equality is with `NULL` and how long a list is
show in the text. -/
namespace RelMap

namespace Sql

theorem nonEmpty_map_text (parts : List Sql) :
    (nonEmpty parts).map text = (parts.map text).filter fun text => !text.isEmpty := by
  rw [nonEmpty, List.filter_map]
  rfl

variable {parts others : List Sql} (h : parts.map text = others.map text)
include h

theorem nonEmpty_map_text_congr : (nonEmpty parts).map text = (nonEmpty others).map text := by
  rw [nonEmpty_map_text, nonEmpty_map_text, h]

theorem group_text_congr (joiner : String) :
    (group joiner parts).text = (group joiner others).text := by
  have hparts := congrArg (List.map parenthesized) (nonEmpty_map_text_congr h)
  rw [List.map_map, List.map_map] at hparts
  exact congrArg (Text.joinWith joiner) hparts

theorem conjunction_text_congr : (conjunction parts).text = (conjunction others).text := by
  have hkept := nonEmpty_map_text_congr h
  unfold conjunction
  split
  · next part hpart =>
    rw [hpart] at hkept
    obtain ⟨other, hother, htext⟩ := List.map_eq_singleton_iff.mp hkept.symm
    rw [hother]
    exact htext.symm
  · next hseveral =>
    split
    · next other hother =>
      rw [hother] at hkept
      obtain ⟨part, hpart, -⟩ := List.map_eq_singleton_iff.mp hkept
      exact absurd hpart (hseveral part)
    · exact group_text_congr h " AND "

end Sql

/-- Forgets a value, but not whether it is `NULL`. -/
def Value.blank (v : Value) : Value := if v.isNull then .null else .bool false

/-- Forgets the operands of a lookup. Whether equality is with `NULL` and how many values a list
has stays. -/
def Lookup.blank : Lookup → Lookup
  | .eq value => .eq value.blank
  | .ne value => .ne value.blank
  | .gt _ => .gt .null
  | .gte _ => .gte .null
  | .lt _ => .lt .null
  | .lte _ => .lte .null
  | .like _ => .like ""
  | .notLike _ => .notLike ""
  | .isNull => .isNull
  | .isNotNull => .isNotNull
  | .between _ _ => .between .null .null
  | .oneOf values => .oneOf (values.map fun _ => .null)
  | .noneOf values => .noneOf (values.map fun _ => .null)

theorem Value.isNull_blank (v : Value) : v.blank.isNull = v.isNull := by
  unfold blank
  cases hnull : v.isNull <;> rfl

theorem Lookup.render_blank (column : String) (lookup : Lookup) :
    (lookup.blank.render column).text = (lookup.render column).text := by
  cases lookup with
  | eq value => simp only [blank, render, Value.isNull_blank, apply_ite Sql.text]
  | ne value => simp only [blank, render, Value.isNull_blank, apply_ite Sql.text]
  | oneOf values =>
    simp only [blank, render, List.isEmpty_map, List.length_map, apply_ite Sql.text]
  | noneOf values =>
    simp only [blank, render, List.isEmpty_map, List.length_map, apply_ite Sql.text]
  | _ => rfl

namespace Condition

mutual
/-- Forgets all operands of a condition, and the arguments of its fragments. -/
def blank : Condition → Condition
  | .compare comparison => .compare { comparison with lookup := comparison.lookup.blank }
  | .all conditions => .all (blankAll conditions)
  | .any conditions => .any (blankAll conditions)
  | .not condition => .not (blank condition)
  | .raw sql _ => .raw sql []

def blankAll : List Condition → List Condition
  | [] => []
  | condition :: rest => blank condition :: blankAll rest
end

theorem blankAll_eq_map (conditions : List Condition) :
    blankAll conditions = conditions.map blank := by
  induction conditions with
  | nil => rfl
  | cons c conditions ih => rw [List.map_cons, blankAll, ih]

private theorem renderAll_blank_of_mem {s : Scope} {conditions : List Condition}
    (h : ∀ c ∈ conditions, (c.blank.render s).map Sql.text = (c.render s).map Sql.text) :
    (renderAll s (blankAll conditions)).map (List.map Sql.text) =
      (renderAll s conditions).map (List.map Sql.text) := by
  rw [renderAll_eq_mapM, renderAll_eq_mapM, blankAll_eq_map, List.mapM_map]
  exact mapM_map_congr h

/-- The text of a condition, or the error, is the same without its operands. -/
theorem render_blank (s : Scope) (c : Condition) :
    (c.blank.render s).map Sql.text = (c.render s).map Sql.text := by
  induction c with
  | compare comparison =>
    refine bind_map_congr (x := s.columnFor comparison.field) fun column => ?_
    exact congrArg Except.ok (Lookup.render_blank column comparison.lookup)
  | all conditions ih =>
    refine map_bind_congr (renderAll_blank_of_mem ih) fun parts others h => ?_
    exact congrArg Except.ok (Sql.group_text_congr h " AND ")
  | any conditions ih =>
    refine map_bind_congr (renderAll_blank_of_mem ih) fun parts others h => ?_
    exact congrArg Except.ok (Sql.group_text_congr h " OR ")
  | not condition ih =>
    refine map_bind_congr ih fun sql other h => ?_
    refine congrArg Except.ok ?_
    simp only [h, apply_ite Sql.text]
  | raw sql args => rfl

theorem conjunction_blank (s : Scope) (conditions : List Condition) :
    (conjunction s (conditions.map blank)).map Sql.text =
      (conjunction s conditions).map Sql.text := by
  rw [← blankAll_eq_map]
  have hparts := renderAll_blank_of_mem fun c (_ : c ∈ conditions) => render_blank s c
  refine map_bind_congr hparts fun parts others h => ?_
  exact congrArg Except.ok (Sql.conjunction_text_congr h)

private theorem anyMentionsOther_blank_of_mem {model : String} {conditions : List Condition}
    (h : ∀ c ∈ conditions, c.blank.mentionsOther model = c.mentionsOther model) :
    anyMentionsOther model (blankAll conditions) = anyMentionsOther model conditions := by
  induction conditions with
  | nil => rfl
  | cons c conditions ih =>
    rw [blankAll, anyMentionsOther, anyMentionsOther, h c List.mem_cons_self,
      ih fun d hd => h d (List.mem_cons_of_mem c hd)]

theorem mentionsOther_blank (model : String) (c : Condition) :
    c.blank.mentionsOther model = c.mentionsOther model := by
  induction c with
  | compare comparison => rfl
  | all conditions ih => exact anyMentionsOther_blank_of_mem ih
  | any conditions ih => exact anyMentionsOther_blank_of_mem ih
  | not condition ih => exact ih
  | raw sql args => rfl

theorem anyMentionsOther_blank (model : String) (conditions : List Condition) :
    anyMentionsOther model (conditions.map blank) = anyMentionsOther model conditions := by
  rw [← blankAll_eq_map]
  exact anyMentionsOther_blank_of_mem fun c _ => mentionsOther_blank model c

end Condition
end RelMap
