import RelMap.Proofs.Condition.Pattern
import RelMap.Proofs.Condition.Template

/-! What an evaluation can fail at: a fragment of SQL, or a pattern that the engine refuses. A
condition without fragments whose patterns can all be compiled has an answer for every record. -/
namespace RelMap

section

variable [Regex.Engine]

theorem Pattern.compile_eq_error {pattern : String} {e : Error} (h : compile pattern = .error e) :
    ∃ reason, e = .hydration (.invalidPattern pattern reason) := by
  unfold compile at h
  cases hengine : Regex.Engine.compile (expression pattern) with
  | error reason =>
    rw [hengine] at h
    exact ⟨reason, (Except.error.inj h).symm⟩
  | ok accepts =>
    rw [hengine] at h
    cases h

namespace Lookup

/-- The pattern that a text is compared with. -/
def pattern? : Lookup → Option String
  | .like pattern => some pattern
  | .notLike pattern => some pattern
  | _ => none

/-- The engine reads the pattern of a lookup, if it has one. -/
def Compiles (lookup : Lookup) : Prop :=
  ∀ pattern ∈ lookup.pattern?, ∃ accepts, Pattern.compile pattern = .ok accepts

/-- A lookup fails with what the engine has to say about its pattern. -/
theorem holds_eq_error {value : Value} {lookup : Lookup} {e : Error}
    (h : lookup.holds value = .error e) :
    ∃ pattern ∈ lookup.pattern?, Pattern.compile pattern = .error e := by
  have hlike : ∀ pattern, value.isLike pattern = .error e → Pattern.compile pattern = .error e :=
    fun pattern => map_eq_error.mp
  cases lookup with
  | like pattern =>
    rw [holds_like] at h
    split_ifs at h
    exact ⟨pattern, rfl, hlike pattern h⟩
  | notLike pattern =>
    rw [holds_notLike] at h
    split_ifs at h
    exact ⟨pattern, rfl, hlike pattern (map_eq_error.mp h)⟩
  | _ => cases h

end Lookup

/-- What is made of a comparison at hand. -/
def Comparison.holds (r : Record) (c : Comparison) : Except Error Bool :=
  c.lookup.holds (r.get c.field.name)

theorem Comparison.exists_holds {c : Comparison} (h : c.lookup.Compiles) (r : Record) :
    ∃ b, c.holds r = .ok b := by
  cases hholds : c.holds r with
  | ok b => exact ⟨b, rfl⟩
  | error e =>
    obtain ⟨pattern, hpattern, hrefused⟩ := Lookup.holds_eq_error hholds
    obtain ⟨accepts, hcompile⟩ := h pattern hpattern
    rw [hcompile] at hrefused
    cases hrefused

end

namespace Condition

variable {c : Condition} {conditions : List Condition}

theorem mem_leavesOfAll {leaf : Condition} :
    leaf ∈ leavesOfAll conditions ↔ ∃ c ∈ conditions, leaf ∈ c.leaves := by
  rw [leavesOfAll_eq_flatMap, List.mem_flatMap]

theorem not_mem_leaves_of_rawFree (h : c.rawFree = true) {sql : String} {args : List Value} :
    .raw sql args ∉ c.leaves := by
  induction c with
  | compare comparison => simp [leaves]
  | all conditions ih | any conditions ih =>
    intro hmem
    obtain ⟨c, hc, hleaf⟩ := mem_leavesOfAll.mp hmem
    exact ih c hc (allRawFree_iff.mp h c hc) hleaf
  | not condition ih => exact ih h
  | raw sql args => cases h

variable [engine : Regex.Engine]

/-- The engine reads every pattern in a condition. -/
def Compiles (c : Condition) : Prop := ∀ q, .compare q ∈ c.leaves → q.lookup.Compiles

theorem compiles_of_lawful (h : engine.Lawful) (c : Condition) : c.Compiles := by
  intro q _ pattern _
  obtain ⟨accepts, hcompile, -⟩ := Pattern.compile_eq_ok h pattern
  exact ⟨accepts, hcompile⟩

theorem Compiles.of_mem (h : ∀ q, .compare q ∈ leavesOfAll conditions → q.lookup.Compiles) :
    ∀ c ∈ conditions, c.Compiles :=
  fun c hc q hq => h q (mem_leavesOfAll.mpr ⟨c, hc, hq⟩)

section Failing

variable {P : Error → Prop} {r : Record}

theorem evaluateAll_failsOnly (h : ∀ c ∈ conditions, FailsOnly P (c.evaluate r)) :
    FailsOnly P (evaluateAll r conditions) := by
  rw [evaluateAll_eq_allM]
  exact .allM h

theorem evaluateAny_failsOnly (h : ∀ c ∈ conditions, FailsOnly P (c.evaluate r)) :
    FailsOnly P (evaluateAny r conditions) := by
  rw [evaluateAny_eq_anyM]
  refine .anyM fun c hc => ?_
  split_ifs
  · exact .ok false
  · exact h c hc

/-- An evaluation fails at a comparison or at a fragment. -/
theorem evaluate_failsOnly (hcompare : ∀ q, .compare q ∈ c.leaves → FailsOnly P (q.holds r))
    (hraw : ∀ sql args, .raw sql args ∈ c.leaves → P (.hydration (.rawCondition sql))) :
    FailsOnly P (c.evaluate r) := by
  have hlist : ∀ {conditions : List Condition} {c leaf : Condition}, c ∈ conditions →
      leaf ∈ c.leaves → leaf ∈ leavesOfAll conditions :=
    fun hc hleaf => mem_leavesOfAll.mpr ⟨_, hc, hleaf⟩
  induction c with
  | compare q => exact hcompare q List.mem_cons_self
  | all conditions ih =>
    exact evaluateAll_failsOnly fun c hc => ih c hc (fun q hq => hcompare q (hlist hc hq))
      fun sql args h => hraw sql args (hlist hc h)
  | any conditions ih =>
    rw [evaluate]
    split_ifs
    · exact .ok true
    · exact evaluateAny_failsOnly fun c hc => ih c hc (fun q hq => hcompare q (hlist hc hq))
        fun sql args h => hraw sql args (hlist hc h)
  | not condition ih =>
    rw [evaluate]
    split_ifs
    · exact .ok true
    · exact (ih hcompare hraw).bind fun b => .ok !b
  | raw sql args =>
    intro e he
    rw [← Except.error.inj he]
    exact hraw sql args List.mem_cons_self

end Failing

/-- What an evaluation fails with names the fragment or the pattern. -/
theorem evaluate_eq_error_kinds {r : Record} {e : Error} (h : c.evaluate r = .error e) :
    (∃ sql, e = .hydration (.rawCondition sql)) ∨
      ∃ pattern reason, e = .hydration (.invalidPattern pattern reason) := by
  refine evaluate_failsOnly (P := fun e => (∃ sql, e = .hydration (.rawCondition sql)) ∨
    ∃ pattern reason, e = .hydration (.invalidPattern pattern reason)) (fun q _ e he => ?_)
    (fun sql _ _ => .inl ⟨sql, rfl⟩) e h
  obtain ⟨pattern, -, hrefused⟩ := Lookup.holds_eq_error he
  exact .inr ⟨pattern, Pattern.compile_eq_error hrefused⟩

theorem exists_evaluate (hfree : c.rawFree = true) (hcompiles : c.Compiles) (r : Record) :
    ∃ b, c.evaluate r = .ok b := by
  refine (evaluate_failsOnly (P := fun _ => False) (fun q hq e he => ?_)
    fun sql args h => not_mem_leaves_of_rawFree hfree h).exists_ok fun _ => id
  obtain ⟨b, hb⟩ := q.exists_holds (hcompiles q hq) r
  rw [hb] at he
  cases he

end Condition
end RelMap
