import RelMap.Include
import RelMap.Proofs.Value.Family

/-!
The order in which an include sorts records. Every two records can be swapped, and records that hold
values of one family in each field that they are sorted by are in a total preorder. Across families
there is none: values that are not comparable count as equal, whatever else they are compared with.
-/
namespace RelMap

open Std (OrientedCmp OrientedOrd TransCmp)

theorem transCmp_comap {α β : Type} (cmp : β → β → Ordering) [TransCmp cmp] (f : α → β) :
    TransCmp fun a b => cmp (f a) (f b) where
  eq_swap := OrientedCmp.eq_swap (a := f _) (b := f _)
  isLE_trans := TransCmp.isLE_trans (a := f _) (b := f _)

namespace Family

/-- Whether a value is of a family, or missing. -/
def Admits (family : Family) (value : Value) : Prop := value.isNull = true ∨ family.Holds value

/-- Where a value of a family stands among the others; `NULL` stands apart. -/
def place (family : Family) (value : Value) : Option (List Int) :=
  if value.isNull then none else some (family.key value)

theorem place_of_null {family : Family} {value : Value} (h : value.isNull = true) :
    family.place value = none := if_pos h

theorem place_of_value {family : Family} {value : Value} (h : value.isNull = false) :
    family.place value = some (family.key value) := if_neg (by simp [h])

end Family

namespace SortTerm

def compareKeys (t : SortTerm) (a b : List Int) : Ordering :=
  match t.direction with
  | .ascending => compare a b
  | .descending => compare b a

instance (t : SortTerm) : TransCmp t.compareKeys where
  eq_swap := by
    intro a b
    unfold compareKeys
    cases t.direction <;> exact OrientedOrd.eq_swap
  isLE_trans := by
    intro a b c
    unfold compareKeys
    cases t.direction with
    | ascending => exact Std.TransOrd.isLE_trans
    | descending => exact fun hab hbc => Std.TransOrd.isLE_trans hbc hab

/-- The order of two places under a sort term. -/
def comparePlaces (t : SortTerm) : Option (List Int) → Option (List Int) → Ordering
  | none, none => .eq
  | none, some _ => if t.nulls = some .first then .lt else .gt
  | some _, none => if t.nulls = some .first then .gt else .lt
  | some a, some b => t.compareKeys a b

instance (t : SortTerm) : TransCmp t.comparePlaces where
  eq_swap := by
    intro a b
    cases a <;> cases b
    case none.none => rfl
    case some.some a b =>
      have hkeys : OrientedCmp t.compareKeys := inferInstance
      exact hkeys.eq_swap
    all_goals
      unfold comparePlaces
      split_ifs <;> rfl
  isLE_trans := by
    intro a b c hab hbc
    cases a with
    | none =>
      cases b with
      | none => exact hbc
      | some b =>
        cases c with
        | none => rfl
        | some c => exact hab
    | some a =>
      cases b with
      | none =>
        cases c with
        | none => exact hab
        | some c =>
          -- `NULL` is on one side of all values, so it cannot stand between two of them.
          unfold comparePlaces at hab hbc
          split_ifs at hab hbc <;> contradiction
      | some b =>
        cases c with
        | none => exact hbc
        | some c =>
          have hkeys : TransCmp t.compareKeys := inferInstance
          exact hkeys.isLE_trans hab hbc

end SortTerm

namespace Include

theorem compareValues_swap (t : SortTerm) (a b : Value) :
    compareValues t b a = (compareValues t a b).swap := by
  unfold compareValues
  cases a.isNull <;> cases b.isNull <;> dsimp only
  case true.true => rfl
  case true.false | false.true => split_ifs <;> rfl
  case false.false =>
    rw [Value.compare?_swap a b]
    cases a.compare? b <;> cases t.direction <;> simp

theorem compareRecords_swap (terms : List SortTerm) (a b : Record) :
    compareRecords terms b a = (compareRecords terms a b).swap := by
  induction terms with
  | nil => rfl
  | cons t rest ih =>
    rw [compareRecords, compareRecords, compareValues_swap t, ih, Ordering.swap_then]

theorem compareValues_eq {t : SortTerm} {family : Family} {a b : Value} (ha : family.Admits a)
    (hb : family.Admits b) :
    compareValues t a b = t.comparePlaces (family.place a) (family.place b) := by
  unfold compareValues Family.place
  cases hnullA : a.isNull <;> cases hnullB : b.isNull
  case false.false =>
    have hkey := Family.compare_key (ha.resolve_left (by simp [hnullA]))
      (hb.resolve_left (by simp [hnullB]))
    show _ = t.compareKeys (family.key a) (family.key b)
    unfold SortTerm.compareKeys
    cases t.direction with
    | ascending => exact hkey
    | descending => exact (congrArg Ordering.swap hkey).trans OrientedOrd.eq_swap.symm
  all_goals rfl

/-- The order of records whose values, term by term, are of one family. -/
def comparePlaced (families : SortTerm → Family) : List SortTerm → Record → Record → Ordering
  | [] => fun _ _ => .eq
  | t :: rest => compareLex
      (fun a b => t.comparePlaces ((families t).place (a.get t.field))
        ((families t).place (b.get t.field)))
      (comparePlaced families rest)

instance (families : SortTerm → Family) (terms : List SortTerm) :
    TransCmp (comparePlaced families terms) := by
  induction terms with
  | nil => exact { eq_swap := rfl, isLE_trans := fun _ _ => rfl }
  | cons t rest ih =>
    have hterm := transCmp_comap t.comparePlaces fun r : Record =>
      (families t).place (r.get t.field)
    exact Std.instTransCmpCompareLex

/-- The values of records are of these families in all fields that the records are sorted by. -/
def Placed (families : SortTerm → Family) (terms : List SortTerm) (r : Record) : Prop :=
  ∀ t ∈ terms, (families t).Admits (r.get t.field)

theorem compareRecords_eq {families : SortTerm → Family} {terms : List SortTerm} {a b : Record}
    (ha : Placed families terms a) (hb : Placed families terms b) :
    compareRecords terms a b = comparePlaced families terms a b := by
  induction terms with
  | nil => rfl
  | cons t rest ih =>
    have hterm := compareValues_eq (t := t) (ha t List.mem_cons_self) (hb t List.mem_cons_self)
    rw [compareRecords, hterm, ih fun u hu => ha u (List.mem_cons_of_mem t hu)]
    · rfl
    · exact fun u hu => hb u (List.mem_cons_of_mem t hu)

/-- Records whose values are of one family in every field that they are sorted by. -/
def Sortable (terms : List SortTerm) (records : List Record) : Prop :=
  ∀ t ∈ terms, ∃ family : Family, ∀ r ∈ records, family.Admits (r.get t.field)

theorem Sortable.exists_placed {terms : List SortTerm} {records : List Record}
    (h : Sortable terms records) :
    ∃ families : SortTerm → Family, ∀ r ∈ records, Placed families terms r := by
  choose! families hfamilies using h
  exact ⟨families, fun r hr t ht => hfamilies t ht r hr⟩

/-- Swapping two records reverses their order. On records with values of one family in each of the
fields that they are sorted by, whatever values are missing, the order is transitive, and so is
being equal under the terms. -/
theorem compareRecords_preorder (terms : List SortTerm) :
    (∀ a b, compareRecords terms b a = (compareRecords terms a b).swap) ∧
      ∀ a b c, Sortable terms [a, b, c] →
        ((compareRecords terms a b).isLE → (compareRecords terms b c).isLE →
          (compareRecords terms a c).isLE) ∧
        (compareRecords terms a b = .eq → compareRecords terms b c = .eq →
          compareRecords terms a c = .eq) := by
  refine ⟨compareRecords_swap terms, fun a b c h => ?_⟩
  obtain ⟨families, hplaced⟩ := h.exists_placed
  have ha := hplaced a (by simp)
  have hb := hplaced b (by simp)
  have hc := hplaced c (by simp)
  rw [compareRecords_eq ha hb, compareRecords_eq hb hc, compareRecords_eq ha hc]
  exact ⟨TransCmp.isLE_trans, TransCmp.eq_trans⟩

/-- By score, the highest first and those without one before them, then by whether it is final. -/
def standingsOrder : List SortTerm :=
  [{ field := "score", direction := .descending, nulls := some .first }, { field := "final" }]

/-- Scores are halves or integers, and what is final is a truth value or an integer. -/
theorem compareRecords_preorder_standings :
    let a : Record := .ofFields [("score", .null), ("final", .int 1)]
    let b : Record := .ofFields [("score", .float ⟨0x4004000000000000⟩), ("final", .bool true)]
    let c : Record := .ofFields [("score", .int 2), ("final", .int 0)]
    Sortable standingsOrder [a, b, c] ∧ compareRecords standingsOrder b a = .gt ∧
      (compareRecords standingsOrder b c).isLE ∧ (compareRecords standingsOrder a c).isLE := by
  intro a b c
  have hsortable : Sortable standingsOrder [a, b, c] := by
    intro t ht
    rcases List.mem_pair.mp ht with rfl | rfl
    · have hb : Family.numeric.Admits (b.get "score") := .inr (.float (by decide))
      have hc : Family.numeric.Admits (c.get "score") := .inr (.exact (by decide))
      exact ⟨.numeric, by simpa using ⟨.inl rfl, hb, hc⟩⟩
    · have ha : Family.whole.Admits (a.get "final") := .inr (.int 1)
      have hb : Family.whole.Admits (b.get "final") := .inr (.bool true)
      have hc : Family.whole.Admits (c.get "final") := .inr (.int 0)
      exact ⟨.whole, by simpa using ⟨ha, hb, hc⟩⟩
  have hab : (compareRecords standingsOrder a b).isLE := by decide +kernel
  have hbc : (compareRecords standingsOrder b c).isLE := by decide +kernel
  have hpreorder := compareRecords_preorder standingsOrder
  refine ⟨hsortable, ?_, hbc, (hpreorder.2 a b c hsortable).1 hab hbc⟩
  rw [hpreorder.1 a b]
  decide +kernel

/-- Records of one value each, under ascending order by it. -/
def compareBare (a b : Value) : Ordering :=
  compareRecords [{ field := "value" }] (.ofFields [("value", a)]) (.ofFields [("value", b)])

/-- Across families the order is not transitive. A value that is not comparable stands level with
all others: a text among integers, or what is not a number among numbers. An integer can be level
with a number that it is rounded to, and with it other integers; and a text can stand between two
dates that are not in the order of their texts. -/
theorem compareRecords_intransitive :
    (compareBare (.int 2) (.text "x") = .eq ∧ compareBare (.text "x") (.int 1) = .eq ∧
      compareBare (.int 2) (.int 1) = .gt) ∧
    (compareBare (.float ⟨0x4000000000000000⟩) (.float ⟨0x7ff8000000000000⟩) = .eq ∧
      compareBare (.float ⟨0x7ff8000000000000⟩) (.float ⟨0x3ff0000000000000⟩) = .eq ∧
      compareBare (.float ⟨0x4000000000000000⟩) (.float ⟨0x3ff0000000000000⟩) = .gt) ∧
    (compareBare (.int 9007199254740993) (.float ⟨0x4340000000000000⟩) = .eq ∧
      compareBare (.float ⟨0x4340000000000000⟩) (.int 9007199254740992) = .eq ∧
      compareBare (.int 9007199254740993) (.int 9007199254740992) = .gt) ∧
    (compareBare (.date ⟨10000, 1, 1⟩) (.text "2000") = .lt ∧
      compareBare (.text "2000") (.date ⟨2024, 1, 1⟩) = .lt ∧
      compareBare (.date ⟨10000, 1, 1⟩) (.date ⟨2024, 1, 1⟩) = .gt) := by
  decide +kernel

end Include

end RelMap
