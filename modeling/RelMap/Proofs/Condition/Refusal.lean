import RelMap.Proofs.Condition.Evaluation

/-! Fragments of SQL among conditions on records at hand. A condition is refused for the first
fragment that its evaluation comes to, and which one that is depends on the answers before it. -/
namespace RelMap.Condition

/-- On the way down to a fragment with some text only certain conditions stand before it, both in
conjunctions and in disjunctions. -/
inductive Meets (conjunct disjunct : Condition → Prop) : Condition → String → Prop where
  | raw {sql : String} (args : List Value) (h : sql ≠ "") :
      Meets conjunct disjunct (.raw sql args) sql
  | all {before : List Condition} {c : Condition} {sql : String} (after : List Condition)
      (hbefore : ∀ d ∈ before, conjunct d) (h : Meets conjunct disjunct c sql) :
      Meets conjunct disjunct (.all (before ++ c :: after)) sql
  | any {before : List Condition} {c : Condition} {sql : String} (after : List Condition)
      (hbefore : ∀ d ∈ before, disjunct d) (h : Meets conjunct disjunct c sql) :
      Meets conjunct disjunct (.any (before ++ c :: after)) sql
  | not {c : Condition} {sql : String} (h : Meets conjunct disjunct c sql) :
      Meets conjunct disjunct (.not c) sql

/-- The fragment that an evaluation comes to: the conjuncts before it hold, and the disjuncts
before it do not, or ask for nothing. -/
def Reaches [Regex.Engine] (r : Record) : Condition → String → Prop :=
  Meets (fun c => c.evaluate r = .ok true) fun c => c.isEmpty = true ∨ c.evaluate r = .ok false

/-- The fragment that comes first: everything before it asks for nothing. -/
def Leads : Condition → String → Prop :=
  Meets (fun c => c.isEmpty = true) fun c => c.isEmpty = true

variable {r : Record} {c : Condition} {conditions : List Condition} {sql : String} {e : Error}

theorem evaluateAny_eq_error [Regex.Engine] : evaluateAny r conditions = .error e ↔
    ∃ before c after, conditions = before ++ c :: after ∧
      (∀ d ∈ before, d.isEmpty = true ∨ d.evaluate r = .ok false) ∧
      c.isEmpty = false ∧ c.evaluate r = .error e := by
  have hpassed : ∀ d : Condition, (if d.isEmpty then .ok false else d.evaluate r) = .ok false ↔
      d.isEmpty = true ∨ d.evaluate r = .ok false := by
    intro d
    split_ifs with hempty <;> simp [hempty]
  have hfails : ∀ d : Condition, (if d.isEmpty then .ok false else d.evaluate r) = .error e ↔
      d.isEmpty = false ∧ d.evaluate r = .error e := by
    intro d
    split_ifs with hempty <;> simp [hempty]
  rw [evaluateAny_eq_anyM, anyM_eq_error]
  simp only [hpassed, hfails]

namespace Meets

variable {conjunct disjunct : Condition → Prop}

theorem ne_empty (h : c.Meets conjunct disjunct sql) : sql ≠ "" := by
  induction h with
  | raw args h => exact h
  | all _ _ _ ih | any _ _ _ ih | not _ ih => exact ih

theorem exists_mem_leaves (h : c.Meets conjunct disjunct sql) :
    ∃ args, .raw sql args ∈ c.leaves := by
  induction h with
  | raw args => exact ⟨args, List.mem_cons_self⟩
  | all _ _ _ ih | any _ _ _ ih =>
    obtain ⟨args, hraw⟩ := ih
    exact ⟨args, mem_leavesOfAll.mpr ⟨_, by simp, hraw⟩⟩
  | not _ ih => exact ih

theorem isEmpty_eq_false (h : c.Meets conjunct disjunct sql) : c.isEmpty = false := by
  induction h with
  | raw args h => simpa [isEmpty] using h
  | all _ _ _ ih | any _ _ _ ih =>
    refine Bool.eq_false_iff.mpr fun hempty => ?_
    rw [allEmpty_iff.mp hempty _ (by simp)] at ih
    cases ih
  | not _ ih => exact ih

end Meets

/-- The refusal of a condition for a fragment that its evaluation comes to. -/
def RefusedFor [Regex.Engine] (r : Record) (c : Condition) (e : Error) : Prop :=
  ∃ sql, c.Reaches r sql ∧ e = .hydration (.rawCondition sql)

section Refused

variable [Regex.Engine]

theorem not_refusedFor_of_isEmpty (h : c.isEmpty = true) : ¬ c.RefusedFor r e := by
  rintro ⟨sql, hsql, -⟩
  exact absurd (hsql.isEmpty_eq_false.symm.trans h) (by decide)

theorem not_refusedFor_compare (q : Comparison) : ¬ (compare q).RefusedFor r e := by
  rintro ⟨sql, hsql, -⟩
  cases hsql

theorem evaluate_all_eq_error
    (h : ∀ d ∈ conditions, d.evaluate r = .error e ↔ d.RefusedFor r e) :
    (all conditions).evaluate r = .error e ↔ (all conditions).RefusedFor r e := by
  rw [evaluate, evaluateAll_eq_allM, allM_eq_error]
  constructor
  · rintro ⟨before, d, after, rfl, hbefore, hd⟩
    obtain ⟨sql, hsql, rfl⟩ := (h d (by simp)).mp hd
    exact ⟨sql, .all after hbefore hsql, rfl⟩
  · rintro ⟨sql, hsql, rfl⟩
    cases hsql with
    | @all before d _ after hbefore hd =>
      exact ⟨before, d, after, rfl, hbefore, (h d (by simp)).mpr ⟨sql, hd, rfl⟩⟩

theorem evaluate_any_eq_error
    (h : ∀ d ∈ conditions, d.isEmpty = false → (d.evaluate r = .error e ↔ d.RefusedFor r e)) :
    (any conditions).evaluate r = .error e ↔ (any conditions).RefusedFor r e := by
  rw [evaluate]
  split_ifs with hempty
  · exact iff_of_false (fun h => by cases h) (not_refusedFor_of_isEmpty hempty)
  rw [evaluateAny_eq_error]
  constructor
  · rintro ⟨before, d, after, rfl, hbefore, hd, hfails⟩
    obtain ⟨sql, hsql, rfl⟩ := (h d (by simp) hd).mp hfails
    exact ⟨sql, .any after hbefore hsql, rfl⟩
  · rintro ⟨sql, hsql, rfl⟩
    cases hsql with
    | @any before d _ after hbefore hsql =>
      have hd := hsql.isEmpty_eq_false
      exact ⟨before, d, after, rfl, hbefore, hd, (h d (by simp) hd).mpr ⟨sql, hsql, rfl⟩⟩

theorem evaluate_not_eq_error
    (h : c.isEmpty = false → (c.evaluate r = .error e ↔ c.RefusedFor r e)) :
    (not c).evaluate r = .error e ↔ (not c).RefusedFor r e := by
  rw [evaluate]
  split_ifs with hempty
  · exact iff_of_false (fun h => by cases h) (not_refusedFor_of_isEmpty (c := c.not) hempty)
  have hnot : (do return !(← evaluate r c)) = .error e ↔ c.evaluate r = .error e := map_eq_error
  rw [hnot, h (by simpa using hempty)]
  refine exists_congr fun sql => and_congr_left fun _ => ⟨.not, fun hsql => ?_⟩
  cases hsql with
  | not hsql => exact hsql

theorem evaluate_raw_eq_error (hne : sql ≠ "") (args : List Value) :
    (raw sql args).evaluate r = .error e ↔ (raw sql args).RefusedFor r e := by
  rw [evaluate]
  constructor
  · intro h
    exact ⟨sql, .raw args hne, (Except.error.inj h).symm⟩
  · rintro ⟨_, hsql, rfl⟩
    cases hsql with
    | raw => rfl

/-- A condition whose patterns can be compiled is refused for the fragment that its evaluation comes
to. -/
theorem evaluate_eq_error (h : c.Worded) (hcompiles : c.Compiles) :
    c.evaluate r = .error e ↔ c.RefusedFor r e := by
  induction h with
  | compare q =>
    obtain ⟨b, hb⟩ := q.exists_holds (hcompiles q List.mem_cons_self) r
    exact iff_of_false (fun h => by cases hb.symm.trans h) (not_refusedFor_compare q)
  | all _ ih => exact evaluate_all_eq_error fun d hd => ih d hd (Compiles.of_mem hcompiles d hd)
  | any _ ih =>
    exact evaluate_any_eq_error fun d hd hempty =>
      ih d hd hempty (Compiles.of_mem hcompiles d hd)
  | not _ ih => exact evaluate_not_eq_error fun hempty => ih hempty hcompiles
  | raw args hne => exact evaluate_raw_eq_error hne args

end Refused

/-- The fragment that comes first is come to on every record. -/
theorem Leads.reaches [Regex.Engine] (h : c.Leads sql) (hworded : c.Worded) (r : Record) :
    c.Reaches r sql := by
  induction h with
  | raw args hne => exact .raw args hne
  | @all before d _ after hbefore _ ih =>
    cases hworded with
    | all hworded =>
      refine .all after (fun b hb => ?_) (ih (hworded d (by simp)))
      exact evaluate_of_isEmpty (hworded b (by simp [hb])) (hbefore b hb)
  | @any before d _ after hbefore hd ih =>
    cases hworded with
    | any hworded =>
      exact .any after (fun b hb => .inl (hbefore b hb))
        (ih (hworded d (by simp) hd.isEmpty_eq_false))
  | not hd ih =>
    cases hworded with
    | not hworded => exact .not (ih (hworded hd.isEmpty_eq_false))

/-- An evaluation depends on the record by the answers to the comparisons alone. -/
theorem evaluate_congr [Regex.Engine] {r r' : Record}
    (h : ∀ q, .compare q ∈ c.leaves → q.holds r = q.holds r') : c.evaluate r = c.evaluate r' := by
  have hlist : ∀ {conditions : List Condition},
      (∀ d ∈ conditions, (∀ q, .compare q ∈ d.leaves → q.holds r = q.holds r') →
        d.evaluate r = d.evaluate r') →
      (∀ q, .compare q ∈ leavesOfAll conditions → q.holds r = q.holds r') →
      ∀ d ∈ conditions, d.evaluate r = d.evaluate r' := by
    intro conditions ih h d hd
    exact ih d hd fun q hq => h q (mem_leavesOfAll.mpr ⟨d, hd, hq⟩)
  induction c with
  | compare q => exact h q List.mem_cons_self
  | all conditions ih =>
    rw [evaluate, evaluate, evaluateAll_eq_allM, evaluateAll_eq_allM]
    exact allM_congr_of_mem (hlist ih h)
  | any conditions ih =>
    rw [evaluate, evaluate, evaluateAny_eq_anyM, evaluateAny_eq_anyM,
      anyM_congr_of_mem fun d hd => by rw [hlist ih h d hd]]
  | not condition ih => rw [evaluate, evaluate, ih h]
  | raw sql args => rfl

/-- The refusal of a condition: which fragment it is refused for, when there is none, when there is
one for every record, and what it depends on. -/
theorem evaluate_refused [Regex.Engine] (h : c.Worded) (hcompiles : c.Compiles) :
    (∀ r e, c.evaluate r = .error e ↔
      ∃ sql, c.Reaches r sql ∧ e = .hydration (.rawCondition sql)) ∧
    ((∀ sql args, .raw sql args ∈ c.leaves → sql = "") → ∀ r, ∃ b, c.evaluate r = .ok b) ∧
    (c.isEmpty = true → ∀ r, c.evaluate r = .ok true) ∧
    (∀ sql, c.Leads sql → ∀ r, c.evaluate r = .error (.hydration (.rawCondition sql))) ∧
    ∀ r r', (∀ q, .compare q ∈ c.leaves → q.holds r = q.holds r') →
      c.evaluate r = c.evaluate r' := by
  refine ⟨fun r e => evaluate_eq_error h hcompiles, fun hblank r => ?_,
    fun hempty r => evaluate_of_isEmpty h hempty, fun sql hleads r => ?_,
    fun r r' => evaluate_congr⟩
  · cases heval : c.evaluate r with
    | ok b => exact ⟨b, rfl⟩
    | error e =>
      obtain ⟨sql, hsql, -⟩ := (evaluate_eq_error h hcompiles).mp heval
      obtain ⟨args, hraw⟩ := hsql.exists_mem_leaves
      exact absurd (hblank sql args hraw) hsql.ne_empty
  · exact (evaluate_eq_error h hcompiles).mpr ⟨sql, hleads.reaches h r, rfl⟩

/-- A record by its identifier, beside a fragment without text, and by the opposite of a fragment of
SQL. -/
def oneUnscored : Condition :=
  .all [.any [.raw "" [], FieldRef.satisfies ⟨"id", none⟩ (.eq (.int 1))],
    .not (.raw "score > 1" [])]

theorem worded_oneUnscored : oneUnscored.Worded := by
  refine .all fun c hc => ?_
  rcases List.mem_pair.mp hc with rfl | rfl
  · refine .any fun d hd hasks => ?_
    rcases List.mem_pair.mp hd with rfl | rfl
    · cases hasks
    · exact .compare _
  · exact .not fun _ => .raw [] (by decide)

/-- The record with this identifier is refused, for the fragment with text. -/
theorem evaluate_refused_oneUnscored : oneUnscored.Worded ∧ oneUnscored.Compiles ∧
    oneUnscored.evaluate (.ofFields [("id", .int 1)]) =
      .error (.hydration (.rawCondition "score > 1")) := by
  have hcompiles : oneUnscored.Compiles := compiles_of_lawful Regex.engine_lawful _
  refine ⟨worded_oneUnscored, hcompiles,
    ((evaluate_refused worded_oneUnscored hcompiles).1 _ _).mpr ⟨_, ?_, rfl⟩⟩
  have hfirst : evaluate (.ofFields [("id", .int 1)])
      (.any [.raw "" [], FieldRef.satisfies ⟨"id", none⟩ (.eq (.int 1))]) = .ok true := rfl
  exact @Meets.all _ _ [_] _ _ [] (List.forall_mem_singleton.mpr hfirst)
    (.not (.raw [] (by decide)))

/-- A record by its identifier and a fragment of SQL. -/
def oneScored : Condition :=
  .all [FieldRef.satisfies ⟨"id", none⟩ (.eq (.int 1)), .raw "score > 1" []]

/-- The record with this identifier is refused and others are not. And what asks for nothing is
refused for a fragment without text that is not skipped. -/
theorem evaluate_refused_apart :
    ((∃ sql args, sql ≠ "" ∧ .raw sql args ∈ oneScored.leaves) ∧
      oneScored.evaluate (.ofFields [("id", .int 1)]) =
        .error (.hydration (.rawCondition "score > 1")) ∧
      oneScored.evaluate (.ofFields [("id", .int 2)]) = .ok false) ∧
    (Condition.all [.raw "" []]).isEmpty = true ∧
      (Condition.all [.raw "" []]).evaluate {} = .error (.hydration (.rawCondition "")) := by
  refine ⟨⟨⟨"score > 1", [], by decide, ?_⟩, rfl, rfl⟩, rfl, rfl⟩
  simp [oneScored, leaves, leavesOfAll]

end RelMap.Condition
