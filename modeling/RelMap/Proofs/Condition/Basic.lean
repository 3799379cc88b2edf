import RelMap.Condition.Evaluate
import RelMap.Condition.Render
import RelMap.Proofs.Pointwise

/-! Trees of conditions: induction over them, the evaluation of lists of them, which of them ask for
nothing, and what the others of a list make together. -/
namespace RelMap

theorem Text.joinWith_eq_empty_iff {separator : String} {parts : List String}
    (hparts : ∀ part ∈ parts, part ≠ "") : joinWith separator parts = "" ↔ parts = [] := by
  constructor
  · intro h
    cases parts with
    | nil => rfl
    | cons part rest =>
      have hpart : part ≠ "" := hparts part List.mem_cons_self
      cases rest with
      | nil => exact absurd h hpart
      | cons next rest => simp [joinWith, hpart] at h
  · rintro rfl
    rfl

section

variable [Regex.Engine] (value : Value) (pattern : String)

theorem Lookup.holds_like : (Lookup.like pattern).holds value =
    if value.isNull then .ok false else value.isLike pattern := by
  unfold holds
  cases value.isNull <;> rfl

theorem Lookup.holds_notLike : (Lookup.notLike pattern).holds value =
    if value.isNull then .ok false else (value.isLike pattern).map not := by
  unfold holds
  cases value.isNull <;> rfl

end

theorem Sql.parenthesized_ne_empty (text : String) : parenthesized text ≠ "" := by
  simp [parenthesized]

namespace Condition

/-- The conditions under a conjunction or disjunction come as a list, and each of them has the
property that is proved of the tree. -/
@[elab_as_elim, induction_eliminator]
theorem tree_induction {motive : Condition → Prop}
    (compare : ∀ comparison, motive (.compare comparison))
    (all : ∀ conditions, (∀ c ∈ conditions, motive c) → motive (.all conditions))
    (any : ∀ conditions, (∀ c ∈ conditions, motive c) → motive (.any conditions))
    (not : ∀ condition, motive condition → motive (.not condition))
    (raw : ∀ sql args, motive (.raw sql args)) (c : Condition) : motive c := by
  refine @Condition.rec motive (fun conditions => ∀ c ∈ conditions, motive c) compare all any not
    raw ?_ ?_ c
  · intro c hc
    cases hc
  · intro first rest hfirst hrest c hc
    rcases List.mem_cons.mp hc with rfl | hc
    · exact hfirst
    · exact hrest c hc

theorem renderAll_eq_mapM (s : Scope) (conditions : List Condition) :
    renderAll s conditions = conditions.mapM (render s) := by
  induction conditions with
  | nil => rfl
  | cons c conditions ih => rw [List.mapM_cons, renderAll, ih]

theorem evaluateAll_eq_allM [Regex.Engine] (r : Record) (conditions : List Condition) :
    evaluateAll r conditions = conditions.allM (evaluate r) := by
  induction conditions with
  | nil => rfl
  | cons c rest ih =>
    rw [evaluateAll, List.allM_cons]
    refine congrArg _ (funext fun holds => ?_)
    cases holds with
    | false => rfl
    | true => exact ih

/-- What asks for nothing is passed over like what does not hold. -/
theorem evaluateAny_eq_anyM [Regex.Engine] (r : Record) (conditions : List Condition) :
    evaluateAny r conditions =
      conditions.anyM fun c => if c.isEmpty then .ok false else c.evaluate r := by
  induction conditions with
  | nil => rfl
  | cons c rest ih =>
    rw [evaluateAny, List.anyM_cons]
    split_ifs
    · exact ih
    · refine congrArg _ (funext fun holds => ?_)
      cases holds with
      | false => exact ih
      | true => rfl

theorem allEmpty_iff {conditions : List Condition} :
    allEmpty conditions = true ↔ ∀ c ∈ conditions, c.isEmpty = true := by
  induction conditions with
  | nil => simp [allEmpty]
  | cons c conditions ih => simp [allEmpty, ih]

mutual
/-- Whether no fragment of SQL stands in a condition. -/
def rawFree : Condition → Bool
  | .compare _ => true
  | .all conditions => allRawFree conditions
  | .any conditions => allRawFree conditions
  | .not condition => rawFree condition
  | .raw _ _ => false

def allRawFree : List Condition → Bool
  | [] => true
  | condition :: rest => rawFree condition && allRawFree rest
end

theorem allRawFree_iff {conditions : List Condition} :
    allRawFree conditions = true ↔ ∀ c ∈ conditions, c.rawFree = true := by
  induction conditions with
  | nil => simp [allRawFree]
  | cons c conditions ih => simp [allRawFree, ih]

/-- A condition in which no fragment without text is evaluated. Under a disjunction or a negation
what asks for nothing is skipped, and such a fragment with it. -/
inductive Worded : Condition → Prop where
  | compare (comparison : Comparison) : Worded (.compare comparison)
  | all {conditions : List Condition} (h : ∀ c ∈ conditions, Worded c) : Worded (.all conditions)
  | any {conditions : List Condition} (h : ∀ c ∈ conditions, c.isEmpty = false → Worded c) :
      Worded (.any conditions)
  | not {condition : Condition} (h : condition.isEmpty = false → Worded condition) :
      Worded (.not condition)
  | raw {sql : String} (args : List Value) (h : sql ≠ "") : Worded (.raw sql args)

theorem Worded.of_rawFree {c : Condition} (h : c.rawFree = true) : c.Worded := by
  induction c with
  | compare comparison => exact .compare comparison
  | all conditions ih => exact .all fun c hc => ih c hc (allRawFree_iff.mp h c hc)
  | any conditions ih => exact .any fun c hc _ => ih c hc (allRawFree_iff.mp h c hc)
  | not condition ih => exact .not fun _ => ih h
  | raw sql args => simp [rawFree] at h

theorem evaluateAll_of_true [Regex.Engine] {r : Record} {conditions : List Condition}
    (h : ∀ c ∈ conditions, c.evaluate r = .ok true) : evaluateAll r conditions = .ok true := by
  rw [evaluateAll_eq_allM, allM_congr_of_mem h]
  exact (List.allM_pure (p := fun _ => true)).trans (by simp [pure, Except.pure])

/-- What asks for nothing holds, unless it has a fragment to stop at. -/
theorem evaluate_of_isEmpty [Regex.Engine] {r : Record} {c : Condition} (h : c.Worded)
    (hempty : c.isEmpty = true) : c.evaluate r = .ok true := by
  induction h with
  | compare comparison => simp [isEmpty] at hempty
  | all _ ih => exact evaluateAll_of_true fun d hd => ih d hd (allEmpty_iff.mp hempty d hd)
  | any => exact if_pos hempty
  | @not condition =>
    rw [isEmpty] at hempty
    rw [evaluate, if_pos hempty]
    rfl
  | raw args h => simp [isEmpty, h] at hempty

end Condition

theorem Lookup.render_text_ne_empty (column : String) (lookup : Lookup) :
    (lookup.render column).text ≠ "" := by
  cases lookup with
  | eq value => by_cases hnull : value.isNull <;> simp [render, hnull]
  | ne value => by_cases hnull : value.isNull <;> simp [render, hnull]
  | oneOf values => by_cases hempty : values.isEmpty <;> simp [render, hempty]
  | noneOf values => by_cases hempty : values.isEmpty <;> simp [render, hempty]
  | _ => simp [render]

/-- A group of parts has no text when none of the parts has any. -/
theorem Sql.group_text_eq_empty_iff {joiner : String} {parts : List Sql} :
    (group joiner parts).text = "" ↔ ∀ part ∈ parts, part.text = "" := by
  have hjoin : (group joiner parts).text = "" ↔
      (nonEmpty parts).map (fun part => parenthesized part.text) = [] := by
    refine Text.joinWith_eq_empty_iff fun text htext => ?_
    obtain ⟨part, -, rfl⟩ := List.mem_map.mp htext
    exact parenthesized_ne_empty part.text
  rw [hjoin, List.map_eq_nil_iff, nonEmpty, List.filter_eq_nil_iff]
  simp

theorem Sql.conjunction_text_eq_empty_iff {parts : List Sql} :
    (conjunction parts).text = "" ↔ ∀ part ∈ parts, part.text = "" := by
  unfold conjunction
  split
  · next part hsingle =>
    have hmem : part ∈ nonEmpty parts := hsingle ▸ List.mem_cons_self
    obtain ⟨hmem, htext⟩ := List.mem_filter.mp hmem
    have hne : part.text ≠ "" := by simpa using htext
    exact ⟨fun h => absurd h hne, fun h => absurd (h part hmem) hne⟩
  · exact group_text_eq_empty_iff

namespace Condition

variable {s : Scope}

private theorem texts_empty_iff_of_mem {conditions : List Condition} {parts : List Sql}
    (hmem : ∀ c ∈ conditions, ∀ sql, c.render s = .ok sql → (sql.text = "" ↔ c.isEmpty = true))
    (h : List.Forall₂ (fun c part => c.render s = .ok part) conditions parts) :
    (∀ part ∈ parts, part.text = "") ↔ ∀ c ∈ conditions, c.isEmpty = true := by
  constructor
  · intro hempty c hc
    obtain ⟨part, hpart, hrender⟩ := exists_right_of_forall₂ h hc
    exact (hmem c hc part hrender).mp (hempty part hpart)
  · intro hempty part hpart
    obtain ⟨c, hc, hrender⟩ := exists_left_of_forall₂ h hpart
    exact (hmem c hc part hrender).mpr (hempty c hc)

/-- Whether a condition has any text is told by its tree alone, however deep the parts stand that
ask for nothing. -/
theorem render_text_eq_empty_iff {c : Condition} {sql : Sql} (h : c.render s = .ok sql) :
    sql.text = "" ↔ c.isEmpty = true := by
  have hgroup : ∀ {conditions joiner} {sql : Sql},
      (∀ c ∈ conditions, ∀ sql, c.render s = .ok sql → (sql.text = "" ↔ c.isEmpty = true)) →
      (do return Sql.group joiner (← renderAll s conditions)) = .ok sql →
      (sql.text = "" ↔ allEmpty conditions = true) := by
    intro conditions joiner sql ih h
    rw [renderAll_eq_mapM] at h
    obtain ⟨parts, hparts, h⟩ := bind_eq_ok.mp h
    obtain rfl := pure_eq_ok.mp h
    rw [Sql.group_text_eq_empty_iff, allEmpty_iff]
    exact texts_empty_iff_of_mem ih (forall₂_of_mapM_eq_ok hparts)
  induction c generalizing sql with
  | compare comparison =>
    obtain ⟨column, -, h⟩ := bind_eq_ok.mp h
    obtain rfl := pure_eq_ok.mp h
    simp [isEmpty, Lookup.render_text_ne_empty]
  | all conditions ih => exact hgroup (fun c hc _ => ih c hc) h
  | any conditions ih => exact hgroup (fun c hc _ => ih c hc) h
  | not condition ih =>
    obtain ⟨inner, hinner, h⟩ := bind_eq_ok.mp h
    obtain rfl := pure_eq_ok.mp h
    have hiff : inner.text = "" ↔ condition.isEmpty = true := ih hinner
    rw [isEmpty, ← hiff]
    by_cases hempty : inner.text = "" <;> simp [hempty]
  | raw text args =>
    obtain rfl := Except.ok.inj h
    simp [isEmpty]

/-- What conditions make together: a single one is left as it is, several stand in parentheses. -/
inductive Conjoins (s : Scope) : List Condition → Sql → Prop where
  | single {c : Condition} {sql : Sql} (h : c.render s = .ok sql) : Conjoins s [c] sql
  | several {conditions : List Condition} {parts : List Sql} (hlength : 2 ≤ conditions.length)
      (h : List.Forall₂ (fun c part => c.render s = .ok part) conditions parts) :
      Conjoins s conditions
        ⟨Text.joinWith " AND " (parts.map fun part => "(" ++ part.text ++ ")"),
          parts.flatMap Sql.args⟩

theorem nonEmpty_of_forall₂ {conditions : List Condition} {parts : List Sql}
    (h : List.Forall₂ (fun c part => c.render s = .ok part) conditions parts) :
    List.Forall₂ (fun c part => c.render s = .ok part)
      (conditions.filter fun c => !c.isEmpty) (Sql.nonEmpty parts) := by
  induction h with
  | nil => exact .nil
  | @cons c part conditions parts hrender _ ih =>
    have hiff := render_text_eq_empty_iff hrender
    unfold Sql.nonEmpty at ih ⊢
    cases hempty : c.isEmpty with
    | true =>
      have htext : part.text = "" := hiff.mpr hempty
      rw [List.filter_cons_of_neg (by simp [hempty]), List.filter_cons_of_neg (by simp [htext])]
      exact ih
    | false =>
      have htext : part.text ≠ "" := fun htext => by simp [hiff.mp htext] at hempty
      rw [List.filter_cons_of_pos (by simp [hempty]),
        List.filter_cons_of_pos (by simpa using htext)]
      exact .cons hrender ih

theorem conjoins_conjunction {asking : List Condition} {parts : List Sql} (hne : asking ≠ [])
    (h : List.Forall₂ (fun c part => c.render s = .ok part) asking (Sql.nonEmpty parts)) :
    Conjoins s asking (Sql.conjunction parts) := by
  unfold Sql.conjunction
  split
  · next part hsingle =>
    rw [hsingle] at h
    obtain ⟨c, rest, hrender, hrest, rfl⟩ := List.forall₂_cons_right_iff.mp h
    obtain rfl := List.forall₂_nil_right_iff.mp hrest
    exact .single hrender
  · next hseveral =>
    refine .several ?_ h
    have hlength : asking.length = (Sql.nonEmpty parts).length := h.length_eq
    have hzero : asking.length ≠ 0 := by simpa using hne
    have hone : asking.length ≠ 1 := fun hone => by
      obtain ⟨part, hpart⟩ := List.length_eq_one_iff.mp (hlength ▸ hone)
      exact hseveral part hpart
    omega

/-- The conditions that ask for nothing do not show in a conjunction, which has no text only if
there are no others. -/
theorem conjunction_eq_ok {conditions : List Condition}
    (hrender : ∀ c ∈ conditions, ∃ sql, c.render s = .ok sql) :
    ∃ filter, conjunction s conditions = .ok filter ∧
      (filter.text = "" ↔ ∀ c ∈ conditions, c.isEmpty = true) ∧
      (filter.text ≠ "" → Conjoins s (conditions.filter fun c => !c.isEmpty) filter) := by
  obtain ⟨parts, hparts⟩ := mapM_exists_ok hrender
  have hrendered := forall₂_of_mapM_eq_ok hparts
  have htext : (Sql.conjunction parts).text = "" ↔ ∀ c ∈ conditions, c.isEmpty = true := by
    rw [Sql.conjunction_text_eq_empty_iff]
    exact texts_empty_iff_of_mem (fun c _ _ => render_text_eq_empty_iff) hrendered
  refine ⟨Sql.conjunction parts, ?_, htext, fun hne => ?_⟩
  · rw [conjunction, renderAll_eq_mapM, hparts]
    rfl
  · refine conjoins_conjunction (fun hnil => hne (htext.mpr ?_)) (nonEmpty_of_forall₂ hrendered)
    simpa using List.filter_eq_nil_iff.mp hnil

end Condition
end RelMap
