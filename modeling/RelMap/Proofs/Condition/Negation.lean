import RelMap.Proofs.Condition.Truth

/-!
Records that pass a filter. An answer of two values cannot say that nothing is known, and a negation
turns a comparison that does not hold into a condition that does. A record can therefore pass a
filter that is unknown to a database, but only over a comparison that is unknown as well and counts
in its favour.
-/
namespace RelMap

namespace Truth

/-- An answer that counts in favour of a record, under its sign, is also that of the reading. -/
def Backs (negated : Bool) (t : Truth) (b : Bool) : Prop := b = !negated → t = ofBool b

variable {negated : Bool} {t u : Truth} {b c : Bool}

theorem backs_compositional : Compositional fun negated t b => Backs negated t b where
  ofBool negated b := fun _ => rfl
  not := by
    intro negated t b h hfavour
    have ht : t = ofBool b := h (by simpa using hfavour)
    rw [ht]
    cases b <;> rfl
  and := by
    intro negated t u b c ht hu hfavour
    cases negated with
    | false =>
      obtain ⟨rfl, rfl⟩ : b = true ∧ c = true := by simpa using hfavour
      rw [ht rfl, hu rfl]
      rfl
    | true =>
      -- One side that does not hold settles a conjunction, whatever is known of the other.
      rcases (Bool.and_eq_false_iff.mp hfavour) with rfl | rfl
      · rw [ht rfl]
        cases u <;> rfl
      · rw [hu rfl, Bool.and_false]
        cases t <;> rfl
  or := by
    intro negated t u b c ht hu hfavour
    cases negated with
    | false =>
      rcases (Bool.or_eq_true_iff.mp hfavour) with rfl | rfl
      · rw [ht rfl]
        cases u <;> rfl
      · rw [hu rfl, Bool.or_true]
        cases t <;> rfl
    | true =>
      obtain ⟨rfl, rfl⟩ : b = false ∧ c = false := by simpa using hfavour
      rw [ht rfl, hu rfl]
      rfl
  and_of_false ht u hfavour := by
    rw [ht hfavour]
    cases u <;> rfl
  or_of_true ht u hfavour := by
    rw [ht hfavour]
    cases u <;> rfl

end Truth

namespace Condition

variable {r : Record} {c : Condition}

section

variable [Regex.Engine] (hfree : c.rawFree = true) (h : c.evaluate r = .ok true)
include hfree h

theorem reading_of_backed
    (hleaves : ∀ leaf ∈ c.signedLeaves false, ∀ b, leaf.2.holds r = .ok b →
      (leaf.2.reading r).Backs leaf.1 b) : c.reading r = .yes :=
  related_of_signedLeaves Truth.backs_compositional false hfree hleaves h rfl

/-- A filter without negations and without exclusions from lists passes only what a database
would. -/
theorem reading_of_evaluate_unnegated
    (hplain : ∀ leaf ∈ c.signedLeaves false,
      leaf.1 = false ∧ ∀ values, leaf.2.lookup ≠ .noneOf values) : c.reading r = .yes := by
  refine reading_of_backed hfree h fun leaf hleaf b hholds => ?_
  obtain ⟨hsign, hlist⟩ := hplain leaf hleaf
  rw [hsign]
  exact Lookup.reading_related Truth.backs_compositional false (fun h => by cases h) hlist hholds

end

/-- A record passes a filter only if it satisfies the condition, unless a comparison that is
unknown counts in its favour: one that holds under an even number of negations, or one that does
not hold under an odd number. -/
theorem reading_of_evaluate [Regex.Engine] (hfree : c.rawFree = true)
    (hunknown : ∀ leaf ∈ c.signedLeaves false,
      leaf.2.reading r = .unknown → leaf.2.holds r ≠ .ok !leaf.1)
    (h : c.evaluate r = .ok true) : c.reading r = .yes := by
  refine reading_of_backed hfree h fun leaf hleaf b hholds hfavour => ?_
  rcases Lookup.reading_allows hholds with hreading | hreading
  · exact absurd (hfavour ▸ hholds) (hunknown leaf hleaf hreading)
  · exact hreading

/-- Called Ann, which is denied to be denied, and of age or at a known address. -/
def trusted : Condition :=
  .all [.not (.not (FieldRef.satisfies ⟨"name", none⟩ (.eq (.text "Ann")))),
    .any [FieldRef.startsWith ⟨"email", none⟩ "ann@",
      .not (FieldRef.satisfies ⟨"age", none⟩ (.lt (.int 18)))]]

/-- Nothing is known of the address of a record, which does not count in its favour. -/
theorem reading_of_evaluate_trusted :
    let r : Record := .ofFields [("name", .text "Ann"), ("email", .null), ("age", .int 30)]
    trusted.rawFree = true ∧ (FieldRef.startsWith ⟨"email", none⟩ "ann@").reading r = .unknown ∧
      trusted.evaluate r = .ok true ∧ trusted.reading r = .yes := by
  intro r
  have hfree : trusted.rawFree = true := by decide
  have hpasses : trusted.evaluate r = .ok true := by rfl
  have hunknown : ∀ leaf ∈ trusted.signedLeaves false,
      leaf.2.reading r = .unknown → leaf.2.holds r ≠ .ok !leaf.1 := by
    intro leaf hleaf hreading hholds
    rcases List.mem_cons.mp hleaf with rfl | hleaf
    · exact absurd hreading (by decide +kernel)
    · rcases List.mem_pair.mp hleaf with rfl | rfl
      · cases hholds
      · exact absurd hreading (by decide +kernel)
  exact ⟨hfree, by decide +kernel, hpasses, reading_of_evaluate hfree hunknown hpasses⟩

/-- Not at this address. -/
def elsewhere : Condition := .not (FieldRef.satisfies ⟨"email", none⟩ (.eq (.text "ann@new.net")))

/-- Neither the first nor one that is missing. -/
def unlisted : Condition := FieldRef.satisfies ⟨"id", none⟩ (.noneOf [.int 1, .null])

/-- Records pass filters of which a database would know nothing: a negation where the address is
missing, and an exclusion from a list in which a value is missing. -/
theorem evaluate_of_reading_unknown :
    (elsewhere.rawFree = true ∧ elsewhere.evaluate (.ofFields [("email", .null)]) = .ok true ∧
      elsewhere.reading (.ofFields [("email", .null)]) = .unknown) ∧
    (unlisted.rawFree = true ∧ unlisted.evaluate (.ofFields [("id", .int 2)]) = .ok true ∧
      unlisted.reading (.ofFields [("id", .int 2)]) = .unknown) :=
  ⟨⟨by decide, rfl, by decide +kernel⟩, by decide, rfl, by decide +kernel⟩

end Condition
end RelMap
