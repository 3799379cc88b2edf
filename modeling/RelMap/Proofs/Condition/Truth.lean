import RelMap.Proofs.Condition.Evaluation

/-!
Conditions as a database reads them, in three-valued logic. Records at hand are judged by two
values, and wherever the reading is definite the two agree.
-/
namespace RelMap

/-- What a database makes of a condition. -/
inductive Truth where
  | yes
  | no
  | unknown
  deriving DecidableEq, Repr

namespace Truth

def ofBool : Bool → Truth
  | true => yes
  | false => no

/-- What is known from an answer; one that cannot be given tells nothing. -/
def ofAnswer : Except Error Bool → Truth
  | .ok b => ofBool b
  | .error _ => unknown

def not : Truth → Truth
  | yes => no
  | no => yes
  | unknown => unknown

/-- Kleene's conjunction: one side that does not hold settles it. -/
def and : Truth → Truth → Truth
  | no, _ => no
  | _, no => no
  | yes, yes => yes
  | _, _ => unknown

/-- Kleene's disjunction: one side that holds settles it. -/
def or : Truth → Truth → Truth
  | yes, _ => yes
  | _, yes => yes
  | no, no => no
  | _, _ => unknown

def all (truths : List Truth) : Truth := truths.foldr and yes

def any (truths : List Truth) : Truth := truths.foldr or no

/-- Whether an answer of two values does not contradict a reading. -/
def Allows (t : Truth) (b : Bool) : Prop := t = unknown ∨ t = ofBool b

variable {t u : Truth} {b c : Bool}

theorem allows_ofBool (b : Bool) : (ofBool b).Allows b := .inr rfl

theorem yes_allows_iff : yes.Allows b ↔ b = true := by
  cases b <;> simp [Allows, ofBool]

theorem no_allows_iff : no.Allows b ↔ b = false := by
  cases b <;> simp [Allows, ofBool]

theorem Allows.not (h : t.Allows b) : t.not.Allows !b := by
  rcases h with rfl | rfl
  · exact .inl rfl
  · cases b <;> exact .inr rfl

theorem Allows.and (ht : t.Allows b) (hu : u.Allows c) : (t.and u).Allows (b && c) := by
  rcases ht with rfl | rfl <;> rcases hu with rfl | rfl <;> cases b <;> cases c <;>
    simp [Allows, Truth.and, ofBool]

theorem Allows.or (ht : t.Allows b) (hu : u.Allows c) : (t.or u).Allows (b || c) := by
  rcases ht with rfl | rfl <;> rcases hu with rfl | rfl <;> cases b <;> cases c <;>
    simp [Allows, Truth.or, ofBool]

/-- What does not hold settles a conjunction, whatever else is in it. -/
theorem Allows.and_of_false (h : t.Allows false) (u : Truth) : (t.and u).Allows false := by
  rcases h with rfl | rfl <;> cases u <;> simp [Allows, Truth.and, ofBool]

/-- What holds settles a disjunction, whatever else is in it. -/
theorem Allows.or_of_true (h : t.Allows true) (u : Truth) : (t.or u).Allows true := by
  rcases h with rfl | rfl <;> cases u <;> simp [Allows, Truth.or, ofBool]

/-- A disjunction of any length is unknown when each of its members is. -/
theorem any_unknown {truths : List Truth} (hne : truths ≠ [])
    (h : ∀ t ∈ truths, t = unknown) : any truths = unknown := by
  induction truths with
  | nil => exact absurd rfl hne
  | cons t truths ih =>
    have ht : t = unknown := h t List.mem_cons_self
    have hrest : any truths = unknown ∨ truths = [] := by
      by_cases hnil : truths = []
      · exact .inr hnil
      · exact .inl (ih hnil fun u hu => h u (List.mem_cons_of_mem t hu))
    rcases hrest with hrest | rfl
    · rw [any, List.foldr_cons, ← any, ht, hrest]
      rfl
    · rw [ht]
      rfl

/-- A relation of readings to answers, under an even or an odd number of negations, that all
connectives keep, also where the answer to one side is enough. -/
structure Compositional (R : Bool → Truth → Bool → Prop) : Prop where
  ofBool : ∀ negated b, R negated (ofBool b) b
  not : ∀ {negated t b}, R (!negated) t b → R negated t.not !b
  and : ∀ {negated t u b c}, R negated t b → R negated u c → R negated (t.and u) (b && c)
  or : ∀ {negated t u b c}, R negated t b → R negated u c → R negated (t.or u) (b || c)
  and_of_false : ∀ {negated t}, R negated t false → ∀ u, R negated (t.and u) false
  or_of_true : ∀ {negated t}, R negated t true → ∀ u, R negated (t.or u) true

theorem Compositional.any {R : Bool → Truth → Bool → Prop} (hR : Compositional R) (negated : Bool)
    {α : Type} {f : α → Truth} {g : α → Bool} {l : List α} (h : ∀ a ∈ l, R negated (f a) (g a)) :
    R negated (Truth.any (l.map f)) (l.any g) := by
  induction l with
  | nil => exact hR.ofBool negated false
  | cons a l ih =>
    have hrest := ih fun b hb => h b (List.mem_cons_of_mem a hb)
    exact hR.or (h a List.mem_cons_self) hrest

theorem allows_compositional : Compositional fun _ => Allows :=
  ⟨fun _ => allows_ofBool, Allows.not, Allows.and, Allows.or, Allows.and_of_false,
    Allows.or_of_true⟩

end Truth

/-- The comparison of two values: unknown when one of them is `NULL`, or when they are not
comparable. -/
def Value.compared (accept : Ordering → Bool) (a b : Value) : Truth :=
  if a.isNull || b.isNull then .unknown
  else match a.compare? b with
    | some order => .ofBool (accept order)
    | none => .unknown

section
variable {R : Bool → Truth → Bool → Prop} (hR : Truth.Compositional R) (negated : Bool)
include hR

theorem Value.compared_related (hunknown : R negated .unknown false) (accept : Ordering → Bool)
    (a b : Value) : R negated (a.compared accept b) (a.inOrder accept b) := by
  unfold compared inOrder
  cases hnull : a.isNull || b.isNull with
  | true =>
    rw [← Bool.not_or, hnull]
    exact hunknown
  | false =>
    obtain ⟨ha, hb⟩ := Bool.or_eq_false_iff.mp hnull
    cases hcompare : a.compare? b with
    | none => simpa using hunknown
    | some order => simpa [ha, hb] using hR.ofBool negated (accept order)

end

namespace Lookup

/-- What a database makes of a lookup. Only the tests for `NULL`, which an equality with `NULL`
is too, are definite on every value. -/
def reading [Regex.Engine] (value : Value) : Lookup → Truth
  | .isNull => .ofBool value.isNull
  | .isNotNull => .ofBool !value.isNull
  | .eq v => if v.isNull then .ofBool value.isNull else value.compared Ordering.isEq v
  | .ne v => if v.isNull then .ofBool !value.isNull else value.compared Ordering.isNe v
  | .gt v => value.compared Ordering.isGT v
  | .gte v => value.compared Ordering.isGE v
  | .lt v => value.compared Ordering.isLT v
  | .lte v => value.compared Ordering.isLE v
  | .between low high => (value.compared Ordering.isGE low).and (value.compared Ordering.isLE high)
  | .oneOf values => .any (values.map (value.compared Ordering.isEq))
  | .noneOf values => (Truth.any (values.map (value.compared Ordering.isEq))).not
  | .like pattern => if value.isNull then .unknown else .ofAnswer (value.isLike pattern)
  | .notLike pattern =>
    if value.isNull then .unknown else (Truth.ofAnswer (value.isLike pattern)).not

section
variable {R : Bool → Truth → Bool → Prop} (hR : Truth.Compositional R) (negated : Bool)
include hR

private theorem nullTest_related {null a b : Bool} {t : Truth} (h : R negated t b) :
    R negated (if null then .ofBool a else t) (if null then a else b) := by
  cases null
  · exact h
  · exact hR.ofBool negated a

/-- Where nothing is known, no lookup holds, but that a value is outside a list. -/
theorem reading_related [Regex.Engine] (hunknown : R negated .unknown false) {lookup : Lookup}
    (hlist : ∀ values, lookup ≠ .noneOf values) {value : Value} {b : Bool}
    (h : lookup.holds value = .ok b) : R negated (lookup.reading value) b := by
  have hcompared : ∀ accept v, R negated (value.compared accept v) (value.inOrder accept v) :=
    fun accept v => Value.compared_related hR negated hunknown accept value v
  cases lookup with
  | like pattern =>
    rw [holds_like] at h
    rw [reading]
    split_ifs at h ⊢ with hnull
    · exact Except.ok.inj h ▸ hunknown
    · rw [h]
      exact hR.ofBool negated b
  | notLike pattern =>
    rw [holds_notLike] at h
    rw [reading]
    split_ifs at h ⊢ with hnull
    · exact Except.ok.inj h ▸ hunknown
    · obtain ⟨found, hanswer, hb⟩ := bind_eq_ok.mp h
      rw [hanswer, ← pure_eq_ok.mp hb]
      exact hR.not (hR.ofBool _ found)
  | noneOf values => exact absurd rfl (hlist values)
  | isNull => exact Except.ok.inj h ▸ hR.ofBool negated _
  | isNotNull => exact Except.ok.inj h ▸ hR.ofBool negated _
  | eq v => exact Except.ok.inj h ▸ nullTest_related hR negated (hcompared _ v)
  | ne v => exact Except.ok.inj h ▸ nullTest_related hR negated (hcompared _ v)
  | between low high => exact Except.ok.inj h ▸ hR.and (hcompared _ low) (hcompared _ high)
  | oneOf values => exact Except.ok.inj h ▸ hR.any negated fun v _ => hcompared _ v
  | gt v => exact Except.ok.inj h ▸ hcompared _ v
  | gte v => exact Except.ok.inj h ▸ hcompared _ v
  | lt v => exact Except.ok.inj h ▸ hcompared _ v
  | lte v => exact Except.ok.inj h ▸ hcompared _ v

end

/-- Of a missing value nothing is known but that it is outside the empty list. -/
private theorem noneOf_allows [Regex.Engine] {value : Value} {values : List Value} {b : Bool}
    (h : holds value (.noneOf values) = .ok b) : (reading value (.noneOf values)).Allows b := by
  obtain rfl := Except.ok.inj h
  have hany : (Truth.any (values.map (value.compared Ordering.isEq))).Allows
      (values.any (value.inOrder Ordering.isEq)) :=
    Truth.allows_compositional.any false fun v _ =>
      Value.compared_related Truth.allows_compositional false (.inl rfl) Ordering.isEq value v
  cases values with
  | nil => exact Truth.allows_ofBool true
  | cons v values =>
    cases hnull : value.isNull with
    | true =>
      have hunknown : Truth.any ((v :: values).map (value.compared Ordering.isEq)) = .unknown := by
        refine Truth.any_unknown (by simp) fun t ht => ?_
        obtain ⟨w, -, rfl⟩ := List.mem_map.mp ht
        simp [Value.compared, hnull]
      exact .inl (by rw [reading, hunknown]; rfl)
    | false => simpa [reading, hnull] using hany.not

theorem reading_allows [Regex.Engine] {value : Value} {lookup : Lookup} {b : Bool}
    (h : lookup.holds value = .ok b) : (lookup.reading value).Allows b := by
  by_cases hlist : ∃ values, lookup = .noneOf values
  · obtain ⟨values, rfl⟩ := hlist
    exact noneOf_allows h
  · exact reading_related Truth.allows_compositional false (.inl rfl)
      (fun values h => hlist ⟨values, h⟩) h

end Lookup

/-- What a database makes of a comparison. -/
def Comparison.reading [Regex.Engine] (r : Record) (c : Comparison) : Truth :=
  c.lookup.reading (r.get c.field.name)

namespace Condition

mutual
/-- What a database makes of a condition. Those under it that ask for nothing do not count, and
one that asks for nothing at all holds; a fragment of SQL is not read. -/
def reading [Regex.Engine] (r : Record) : Condition → Truth
  | .compare comparison => comparison.lookup.reading (r.get comparison.field.name)
  | .all conditions => .all (readings r conditions)
  | .any conditions => if allEmpty conditions then .yes else .any (readings r conditions)
  | .not condition => if condition.isEmpty then .yes else (reading r condition).not
  | .raw _ _ => .unknown

def readings [Regex.Engine] (r : Record) : List Condition → List Truth
  | [] => []
  | condition :: rest =>
    if condition.isEmpty then readings r rest else reading r condition :: readings r rest
end

variable {r : Record} {c : Condition} {conditions : List Condition}

mutual
/-- The comparisons of a condition from left to right, each with whether it stands under an odd
number of negations. -/
def signedLeaves (negated : Bool) : Condition → List (Bool × Comparison)
  | .compare comparison => [(negated, comparison)]
  | .all conditions => signedLeavesOfAll negated conditions
  | .any conditions => signedLeavesOfAll negated conditions
  | .not condition => signedLeaves (!negated) condition
  | .raw _ _ => []

def signedLeavesOfAll (negated : Bool) : List Condition → List (Bool × Comparison)
  | [] => []
  | condition :: rest => signedLeaves negated condition ++ signedLeavesOfAll negated rest
end

theorem mem_signedLeavesOfAll {negated : Bool} {leaf : Bool × Comparison} :
    leaf ∈ signedLeavesOfAll negated conditions ↔
      ∃ c ∈ conditions, leaf ∈ c.signedLeaves negated := by
  induction conditions with
  | nil => simp [signedLeavesOfAll]
  | cons c conditions ih => simp [signedLeavesOfAll, ih]

section Related

variable [Regex.Engine] {R : Bool → Truth → Bool → Prop} (hR : Truth.Compositional R)
  {negated b : Bool}
include hR

theorem evaluateAll_related (hfree : ∀ c ∈ conditions, c.rawFree = true)
    (hmem : ∀ c ∈ conditions, ∀ b, c.evaluate r = .ok b → R negated (c.reading r) b)
    (h : evaluateAll r conditions = .ok b) :
    R negated (Truth.all (readings r conditions)) b := by
  induction conditions generalizing b with
  | nil => exact Except.ok.inj h ▸ hR.ofBool negated true
  | cons c rest ih =>
    obtain ⟨first, hfirst, h⟩ := bind_eq_ok.mp h
    have hrest : ∀ {d}, evaluateAll r rest = .ok d →
        R negated (Truth.all (readings r rest)) d :=
      ih (fun d hd => hfree d (List.mem_cons_of_mem c hd))
        fun d hd => hmem d (List.mem_cons_of_mem c hd)
    have hrelated := hmem c List.mem_cons_self first hfirst
    rw [readings]
    cases hempty : c.isEmpty with
    | true =>
      have htrue := evaluate_of_isEmpty (r := r) (.of_rawFree (hfree c List.mem_cons_self)) hempty
      obtain rfl := Except.ok.inj (htrue.symm.trans hfirst)
      exact hrest h
    | false =>
      cases first with
      | true => exact hR.and hrelated (hrest h)
      | false =>
        obtain rfl := pure_eq_ok.mp h
        exact hR.and_of_false hrelated _

theorem evaluateAny_related
    (hmem : ∀ c ∈ conditions, ∀ b, c.evaluate r = .ok b → R negated (c.reading r) b)
    (h : evaluateAny r conditions = .ok b) :
    R negated (Truth.any (readings r conditions)) b := by
  induction conditions generalizing b with
  | nil => exact Except.ok.inj h ▸ hR.ofBool negated false
  | cons c rest ih =>
    have hrest : ∀ {d}, evaluateAny r rest = .ok d →
        R negated (Truth.any (readings r rest)) d :=
      ih fun d hd => hmem d (List.mem_cons_of_mem c hd)
    rw [evaluateAny] at h
    rw [readings]
    cases hempty : c.isEmpty with
    | true => exact hrest (by simpa [hempty] using h)
    | false =>
      rw [hempty] at h
      obtain ⟨first, hfirst, h⟩ := bind_eq_ok.mp h
      have hrelated := hmem c List.mem_cons_self first hfirst
      cases first with
      | false => exact hR.or hrelated (hrest h)
      | true =>
        obtain rfl := pure_eq_ok.mp h
        exact hR.or_of_true hrelated _

/-- What relates the readings of all comparisons to their answers relates the reading of the tree
to its answer, if it has one. -/
theorem related_of_signedLeaves (negated : Bool) (hfree : c.rawFree = true)
    (hleaves : ∀ leaf ∈ c.signedLeaves negated, ∀ b, leaf.2.holds r = .ok b →
      R leaf.1 (leaf.2.reading r) b)
    (h : c.evaluate r = .ok b) : R negated (c.reading r) b := by
  induction c generalizing negated b with
  | compare comparison => exact hleaves _ (List.mem_singleton_self _) b h
  | all conditions ih =>
    have hall := allRawFree_iff.mp hfree
    refine evaluateAll_related hR hall (fun c hc b hb => ih c hc negated (hall c hc) ?_ hb) h
    exact fun leaf hleaf => hleaves leaf (mem_signedLeavesOfAll.mpr ⟨c, hc, hleaf⟩)
  | any conditions ih =>
    rw [evaluate] at h
    rw [reading]
    split_ifs at h ⊢ with hempty
    · exact Except.ok.inj h ▸ hR.ofBool negated true
    · refine evaluateAny_related hR (fun c hc b hb => ih c hc negated
        (allRawFree_iff.mp hfree c hc) ?_ hb) h
      exact fun leaf hleaf => hleaves leaf (mem_signedLeavesOfAll.mpr ⟨c, hc, hleaf⟩)
  | not condition ih =>
    rw [evaluate] at h
    rw [reading]
    split_ifs at h ⊢ with hempty
    · exact pure_eq_ok.mp h ▸ hR.ofBool negated true
    · obtain ⟨inner, hinner, h⟩ := bind_eq_ok.mp h
      obtain rfl := pure_eq_ok.mp h
      exact hR.not (ih (!negated) hfree hleaves hinner)
  | raw sql args => cases h

end Related

/-- A negation turns an answer into its opposite, and never an unknown reading into a definite
one, so the answers below it may be wrong only where its own reading is unknown as well. -/
theorem reading_allows [Regex.Engine] (hfree : c.rawFree = true) {b : Bool}
    (h : c.evaluate r = .ok b) : (c.reading r).Allows b :=
  related_of_signedLeaves Truth.allows_compositional false hfree
    (fun _ _ _ hholds => Lookup.reading_allows hholds) h

/-- A record at hand gets every definite answer that a database would give. -/
theorem evaluate_of_reading [Regex.Engine] (hfree : c.rawFree = true) (hcompiles : c.Compiles)
    (r : Record) :
    (c.reading r = .yes → c.evaluate r = .ok true) ∧
      (c.reading r = .no → c.evaluate r = .ok false) := by
  obtain ⟨b, hb⟩ := exists_evaluate hfree hcompiles r
  have hallows := reading_allows hfree hb
  rw [hb]
  constructor
  · intro hyes
    rw [hyes, Truth.yes_allows_iff] at hallows
    rw [hallows]
  · intro hno
    rw [hno, Truth.no_allows_iff] at hallows
    rw [hallows]

/-- Grown up, not at an address of old, and not called Bob. -/
def contactable : Condition :=
  .all [.not (.any [.all [], FieldRef.satisfies ⟨"age", none⟩ (.lt (.int 18)),
      FieldRef.endsWith ⟨"email", none⟩ "@old.net"]),
    FieldRef.satisfies ⟨"name", none⟩ (.noneOf [.text "Bob"]), .not (.any [])]

/-- Of the second record it is known that it is no match, though it has neither a name nor an
address. -/
theorem evaluate_of_reading_contactable :
    contactable.rawFree = true ∧ contactable.Compiles ∧
      (∃ r : Record, contactable.reading r = .yes ∧ contactable.evaluate r = .ok true) ∧
      ∃ r : Record, contactable.reading r = .no ∧ contactable.evaluate r = .ok false := by
  have hfree : contactable.rawFree = true := by decide
  have hcompiles : contactable.Compiles := compiles_of_lawful Regex.engine_lawful _
  have hyes : contactable.reading (.ofFields [("name", .text "Ann"), ("age", .int 30),
      ("email", .text "ann@new.net")]) = .yes := by decide +kernel
  have hno : contactable.reading (.ofFields [("age", .int 12), ("email", .null)]) = .no := by
    decide +kernel
  exact ⟨hfree, hcompiles, ⟨_, hyes, (evaluate_of_reading hfree hcompiles _).1 hyes⟩,
    ⟨_, hno, (evaluate_of_reading hfree hcompiles _).2 hno⟩⟩

end Condition
end RelMap
