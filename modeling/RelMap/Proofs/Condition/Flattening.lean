import RelMap.Proofs.Condition.Combination
import RelMap.Proofs.Condition.Scope

/-!
Combinations that are not nested. Two conditions are combined through the members that each of them
contributes, and what they mean together does not depend on how deep the members stand.
-/
namespace RelMap

/-- Two attempts to write a condition that end alike: with the same error, or with the same
arguments and with text in both or in none. -/
def Sql.EndAlike : Except Error Sql → Except Error Sql → Prop
  | .ok a, .ok b => a.args = b.args ∧ (a.text = "" ↔ b.text = "")
  | .error e, .error e' => e = e'
  | _, _ => False

namespace Connective

/-- The combination of conditions. -/
def combine : Connective → List Condition → Condition
  | .and => .all
  | .or => .any

/-- Two conditions combined, without a combination of the same kind inside. -/
def join : Connective → Condition → Condition → Condition
  | .and => Condition.both
  | .or => Condition.either

/-- What a condition contributes to a combination: its own members if it is one of the same kind,
else itself. -/
def members : Connective → Condition → List Condition
  | .and, .all conditions => conditions
  | .or, .any conditions => conditions
  | _, c => [c]

variable (k : Connective) (a b c : Condition)

theorem join_eq_combine : k.join a b = k.combine (k.members a ++ k.members b) := by
  cases k <;> cases a <;> cases b <;> rfl

@[simp] theorem members_combine (conditions : List Condition) :
    k.members (k.combine conditions) = conditions := by
  cases k <;> rfl

theorem combine_or_members : (∃ conditions, c = k.combine conditions) ∨ k.members c = [c] := by
  cases k with
  | and =>
    cases c with
    | all conditions => exact .inl ⟨conditions, rfl⟩
    | _ => exact .inr rfl
  | or =>
    cases c with
    | any conditions => exact .inl ⟨conditions, rfl⟩
    | _ => exact .inr rfl

theorem join_assoc : k.join (k.join a b) c = k.join a (k.join b c) := by
  simp only [join_eq_combine, members_combine, List.append_assoc]

end Connective

namespace Condition

variable {r : Record} {s : Scope} (k : Connective) (a b c : Condition)

theorem isEmpty_combine (conditions : List Condition) :
    (k.combine conditions).isEmpty = allEmpty conditions := by
  cases k <;> rfl

theorem comparisons_combine (conditions : List Condition) :
    (k.combine conditions).comparisons = conditions.flatMap comparisons := by
  cases k <;> exact comparisons_of_leaves rfl

theorem arguments_combine (conditions : List Condition) :
    (k.combine conditions).arguments = argumentsOfAll conditions := by
  cases k <;> rfl

theorem allEmpty_append (l m : List Condition) :
    allEmpty (l ++ m) = (allEmpty l && allEmpty m) := by
  induction l with
  | nil => rfl
  | cons c l ih => rw [List.cons_append, allEmpty, allEmpty, ih, Bool.and_assoc]

theorem argumentsOfAll_append (l m : List Condition) :
    argumentsOfAll (l ++ m) = argumentsOfAll l ++ argumentsOfAll m := by
  simp only [argumentsOfAll_eq_flatMap, asking, List.filter_append, List.flatMap_append]

theorem argumentsOfAll_of_allEmpty {conditions : List Condition}
    (h : allEmpty conditions = true) : argumentsOfAll conditions = [] := by
  have hnone : asking conditions = [] := by
    apply List.filter_eq_nil_iff.mpr
    intro c hc
    simp [allEmpty_iff.mp h c hc]
  rw [argumentsOfAll_eq_flatMap, hnone, List.flatMap_nil]

section Members

theorem allEmpty_members : allEmpty (k.members c) = allEmpty [c] := by
  rcases k.combine_or_members c with ⟨conditions, rfl⟩ | hsingle
  · rw [Connective.members_combine, allEmpty, allEmpty, Bool.and_true, isEmpty_combine]
  · rw [hsingle]

theorem comparisons_members : (k.members c).flatMap comparisons = [c].flatMap comparisons := by
  rcases k.combine_or_members c with ⟨conditions, rfl⟩ | hsingle
  · rw [Connective.members_combine, List.flatMap_singleton, comparisons_combine]
  · rw [hsingle]

/-- The members of a combination that asks for nothing bind nothing either. -/
theorem argumentsOfAll_members : argumentsOfAll (k.members c) = argumentsOfAll [c] := by
  rcases k.combine_or_members c with ⟨conditions, rfl⟩ | hsingle
  · rw [Connective.members_combine, argumentsOfAll, argumentsOfAll, List.append_nil,
      isEmpty_combine, arguments_combine]
    split_ifs with hempty
    · exact argumentsOfAll_of_allEmpty hempty
    · rfl
  · rw [hsingle]

theorem evaluateAll_members [Regex.Engine] :
    evaluateAll r (Connective.and.members c) = evaluateAll r [c] := by
  have hself : evaluateAll r [c] = c.evaluate r := by
    rw [evaluateAll_eq_allM, List.allM_cons]
    cases c.evaluate r with
    | error e => rfl
    | ok holds => cases holds <;> rfl
  rcases Connective.and.combine_or_members c with ⟨conditions, rfl⟩ | hsingle
  · exact hself.symm
  · rw [hsingle]

theorem evaluateAny_of_allEmpty [Regex.Engine] {conditions : List Condition}
    (h : allEmpty conditions = true) :
    evaluateAny r conditions = .ok false := by
  induction conditions with
  | nil => rfl
  | cons c conditions ih =>
    obtain ⟨hc, hrest⟩ := Bool.and_eq_true_iff.mp h
    rw [evaluateAny, if_pos hc, ih hrest]

/-- A disjunction inside another one is passed over when all of its members are. -/
theorem evaluateAny_members [Regex.Engine] :
    evaluateAny r (Connective.or.members c) = evaluateAny r [c] := by
  rcases Connective.or.combine_or_members c with ⟨conditions, rfl⟩ | hsingle
  · have hself : evaluateAny r [any conditions] =
        if allEmpty conditions then .ok false else evaluateAny r conditions := by
      rw [evaluateAny_eq_anyM, List.anyM_cons, isEmpty, evaluate]
      split_ifs with hempty
      · rfl
      · cases evaluateAny r conditions with
        | error e => rfl
        | ok found => cases found <;> rfl
    have hmembers : evaluateAny r conditions =
        if allEmpty conditions then .ok false else evaluateAny r conditions := by
      split_ifs with hempty
      · exact evaluateAny_of_allEmpty hempty
      · rfl
    exact hmembers.trans hself.symm
  · rw [hsingle]

end Members

section Join

theorem isEmpty_join : (k.join a b).isEmpty = (k.combine [a, b]).isEmpty := by
  rw [Connective.join_eq_combine, isEmpty_combine, isEmpty_combine, allEmpty_append,
    allEmpty_members, allEmpty_members, ← allEmpty_append]
  rfl

theorem comparisons_join : (k.join a b).comparisons = (k.combine [a, b]).comparisons := by
  rw [Connective.join_eq_combine, comparisons_combine, comparisons_combine, List.flatMap_append,
    comparisons_members, comparisons_members, ← List.flatMap_append]
  rfl

theorem arguments_join : (k.join a b).arguments = (k.combine [a, b]).arguments := by
  rw [Connective.join_eq_combine, arguments_combine, arguments_combine, argumentsOfAll_append,
    argumentsOfAll_members, argumentsOfAll_members, ← argumentsOfAll_append]
  rfl

theorem evaluate_both [Regex.Engine] : (both a b).evaluate r = (all [a, b]).evaluate r := by
  have hjoin : both a b = all (Connective.and.members a ++ Connective.and.members b) :=
    Connective.join_eq_combine .and a b
  have happend : ∀ l m, evaluateAll r (l ++ m) =
      evaluateAll r l >>= fun holds => if holds then evaluateAll r m else pure false := by
    intro l m
    simp only [evaluateAll_eq_allM, allM_append]
  calc (both a b).evaluate r
      = evaluateAll r (Connective.and.members a ++ Connective.and.members b) := by
        rw [hjoin, evaluate]
    _ = evaluateAll r ([a] ++ [b]) := by
        rw [happend, happend, evaluateAll_members, evaluateAll_members]
    _ = (all [a, b]).evaluate r := rfl

theorem evaluate_either [Regex.Engine] : (either a b).evaluate r = (any [a, b]).evaluate r := by
  have hjoin : either a b = any (Connective.or.members a ++ Connective.or.members b) :=
    Connective.join_eq_combine .or a b
  have happend : ∀ l m, evaluateAny r (l ++ m) =
      evaluateAny r l >>= fun found => if found then pure true else evaluateAny r m := by
    intro l m
    simp only [evaluateAny_eq_anyM, anyM_append]
  have hempty : allEmpty (Connective.or.members a ++ Connective.or.members b) =
      allEmpty ([a] ++ [b]) := by
    rw [allEmpty_append, allEmpty_append, allEmpty_members, allEmpty_members]
  have hany : evaluateAny r (Connective.or.members a ++ Connective.or.members b) =
      evaluateAny r ([a] ++ [b]) := by
    rw [happend, happend, evaluateAny_members, evaluateAny_members]
  rw [hjoin, evaluate, hempty, hany]
  rfl

end Join

/-- How a condition ends when it is written, which arguments it binds and whether it has text are
told by its comparisons, its values and whether it asks for something. -/
theorem render_endAlike {c d : Condition} (hcomparisons : c.comparisons = d.comparisons)
    (harguments : c.arguments = d.arguments) (hempty : c.isEmpty = d.isEmpty) (s : Scope) :
    Sql.EndAlike (c.render s) (d.render s) := by
  have hending : ending (c.render s) = ending (d.render s) := by
    rw [ending_render, ending_render, hcomparisons]
  cases hc : c.render s with
  | error e =>
    have hd : d.render s = .error e := (eq_error_congr hending).mp hc
    rw [hd]
    rfl
  | ok sql =>
    obtain ⟨sql', hd⟩ := (exists_ok_congr hending).mp ⟨sql, hc⟩
    rw [hd]
    constructor
    · rw [render_args hc, render_args hd, harguments]
    · rw [render_text_eq_empty_iff hc, render_text_eq_empty_iff hd, hempty]

theorem render_join_endAlike (s : Scope) :
    Sql.EndAlike ((k.join a b).render s) ((k.combine [a, b]).render s) :=
  render_endAlike (comparisons_join k a b) (arguments_join k a b) (isEmpty_join k a b) s

/-- Conditions can be combined in any grouping, which leaves the same tree. The tree that is not
nested means what the nested one does: to every record, with the same refusals, and in every scope,
where both are refused alike or bind the same arguments and have text or none. -/
theorem flattening_keeps_meaning [Regex.Engine] :
    (∀ a b c : Condition,
      (a &&& b) &&& c = a &&& (b &&& c) ∧ (a ||| b) ||| c = a ||| (b ||| c)) ∧
    (∀ (r : Record) (a b : Condition),
      (a &&& b).evaluate r = (all [a, b]).evaluate r ∧
      (a ||| b).evaluate r = (any [a, b]).evaluate r) ∧
    ∀ (s : Scope) (a b : Condition),
      Sql.EndAlike ((a &&& b).render s) ((all [a, b]).render s) ∧
      Sql.EndAlike ((a ||| b).render s) ((any [a, b]).render s) := by
  refine ⟨fun a b c => ⟨?_, ?_⟩, fun r a b => ⟨?_, ?_⟩, fun s a b => ⟨?_, ?_⟩⟩
  · exact Connective.join_assoc .and a b c
  · exact Connective.join_assoc .or a b c
  · exact evaluate_both a b
  · exact evaluate_either a b
  · exact render_join_endAlike .and a b s
  · exact render_join_endAlike .or a b s

end Condition
end RelMap
