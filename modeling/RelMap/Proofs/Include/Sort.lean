import Mathlib.Data.List.Induction
import RelMap.Proofs.Include.Order

/-!
The sort of an include. Records are numbered as they come; what is level under the sort terms stays
in the order of the numbers.
-/
namespace RelMap

open Std (OrientedCmp OrientedOrd TransCmp)

/-- Whether a value comes before another under a sort term. Missing values come first if the term
says so and last if it does not, whatever its direction. -/
inductive SortTerm.Before (t : SortTerm) (a b : Value) : Prop where
  | nullFirst (h : t.nulls = some .first) (ha : a.isNull = true) (hb : b.isNull = false)
  | nullLast (h : t.nulls ≠ some .first) (ha : a.isNull = false) (hb : b.isNull = true)
  | ascending (h : t.direction = .ascending) (ha : a.isNull = false) (hb : b.isNull = false)
      (hab : a.sortKey < b.sortKey)
  | descending (h : t.direction = .descending) (ha : a.isNull = false) (hb : b.isNull = false)
      (hab : b.sortKey < a.sortKey)

namespace Include

/-- Whether a record comes before another: by the first term under which they differ. -/
inductive Precedes : List SortTerm → Record → Record → Prop where
  | first {t : SortTerm} {rest : List SortTerm} {a b : Record}
      (h : t.Before (a.get t.field) (b.get t.field)) : Precedes (t :: rest) a b
  | later {t : SortTerm} {rest : List SortTerm} {a b : Record}
      (h : a.get t.field = b.get t.field) (hrest : Precedes rest a b) : Precedes (t :: rest) a b

/-- Whether two records hold the same values in all fields that they are sorted by. -/
def Level (terms : List SortTerm) (a b : Record) : Prop :=
  ∀ t ∈ terms, a.get t.field = b.get t.field

/-- The records in order under the sort terms, those that are level in the order in which they
came. -/
def Arranged (terms : List SortTerm) (records arranged : List Record) : Prop :=
  ∃ numbered : List (Record × Nat), numbered.map Prod.fst = arranged ∧
    numbered.Perm records.zipIdx ∧
    numbered.Pairwise fun x y =>
      Precedes terms x.1 y.1 ∨ Level terms x.1 y.1 ∧ x.2 < y.2

/-- Records whose values are of one scalar kind, or missing, in every field that they are sorted
by. -/
def Uniform (terms : List SortTerm) (records : List Record) : Prop :=
  ∀ t ∈ terms, ∃ kind : ScalarKind, ∀ r ∈ records,
    (r.get t.field).isNull = true ∨ (r.get t.field).scalarKind? = some kind

/-- A numbered record comes before another: by the order of records, then by the numbers. -/
def Leads (cmp : Record → Record → Ordering) (x y : Record × Nat) : Prop :=
  cmp x.1 y.1 = .lt ∨ cmp x.1 y.1 = .eq ∧ x.2 < y.2

theorem Leads.trans {cmp : Record → Record → Ordering} [TransCmp cmp] {x y z : Record × Nat}
    (hxy : Leads cmp x y) (hyz : Leads cmp y z) : Leads cmp x z := by
  rcases hxy with hxy | ⟨hxy, hlt⟩ <;> rcases hyz with hyz | ⟨hyz, hlt'⟩
  · exact .inl (TransCmp.lt_trans hxy hyz)
  · exact .inl (TransCmp.lt_of_lt_of_eq hxy hyz)
  · exact .inl (TransCmp.lt_of_eq_of_lt hxy hyz)
  · exact .inr ⟨TransCmp.eq_trans hxy hyz, hlt.trans hlt'⟩

section Insert

variable {terms : List SortTerm} {cmp : Record → Record → Ordering} [TransCmp cmp]

/-- A record with a number above all others finds its place among numbered records that are in
descending order. -/
theorem insertDescending_numbered {r : Record} {n : Nat} {done : List (Record × Nat)}
    (hcmp : ∀ s ∈ done, compareRecords terms r s.1 = cmp r s.1) (hn : ∀ s ∈ done, s.2 < n)
    (hdone : done.Pairwise fun x y => Leads cmp y x) :
    ∃ inserted : List (Record × Nat),
      inserted.map Prod.fst = insertDescending terms r (done.map Prod.fst) ∧
      inserted.Perm ((r, n) :: done) ∧ inserted.Pairwise fun x y => Leads cmp y x := by
  induction done with
  | nil => exact ⟨[(r, n)], rfl, .refl _, List.pairwise_singleton _ _⟩
  | cons s rest ih =>
    obtain ⟨hs, hrest⟩ := List.pairwise_cons.mp hdone
    have hfirst := hcmp s List.mem_cons_self
    by_cases hlt : cmp r s.1 = .lt
    · obtain ⟨inserted, hmap, hperm, hpairwise⟩ :=
        ih (fun x hx => hcmp x (List.mem_cons_of_mem s hx))
          (fun x hx => hn x (List.mem_cons_of_mem s hx)) hrest
      refine ⟨s :: inserted, ?_, (hperm.cons s).trans (.swap _ _ _), ?_⟩
      · rw [List.map_cons, List.map_cons, insertDescending, hfirst, if_pos hlt, hmap]
      · refine List.pairwise_cons.mpr ⟨fun x hx => ?_, hpairwise⟩
        rcases List.mem_cons.mp (hperm.mem_iff.mp hx) with rfl | hx
        · exact .inl hlt
        · exact hs x hx
    · have hlead : Leads cmp s (r, n) := by
        cases horder : cmp r s.1 with
        | lt => exact absurd horder hlt
        | eq => exact .inr ⟨OrientedCmp.eq_comm.mp horder, hn s List.mem_cons_self⟩
        | gt => exact .inl (OrientedCmp.gt_iff_lt.mp horder)
      refine ⟨(r, n) :: s :: rest, ?_, .refl _, List.pairwise_cons.mpr ⟨fun x hx => ?_, hdone⟩⟩
      · rw [List.map_cons, List.map_cons, insertDescending, hfirst, if_neg hlt]
      · rcases List.mem_cons.mp hx with rfl | hx
        · exact hlead
        · exact (hs x hx).trans hlead

/-- After each record those that have come so far stand in descending order. -/
theorem sortRecords_numbered {records : List Record}
    (hcmp : ∀ r ∈ records, ∀ s ∈ records, compareRecords terms r s = cmp r s) :
    ∃ numbered : List (Record × Nat), numbered.map Prod.fst = sortRecords terms records ∧
      numbered.Perm records.zipIdx ∧ numbered.Pairwise (Leads cmp) := by
  have hfold : ∃ done : List (Record × Nat),
      done.map Prod.fst = records.foldl (fun done r => insertDescending terms r done) [] ∧
      done.Perm records.zipIdx ∧ done.Pairwise fun x y => Leads cmp y x := by
    induction records using List.reverseRecOn with
    | nil => exact ⟨[], rfl, .refl _, .nil⟩
    | append_singleton records r ih =>
      obtain ⟨done, hmap, hperm, hpairwise⟩ :=
        ih fun x hx y hy => hcmp x (List.mem_append_left _ hx) y (List.mem_append_left _ hy)
      have hmem : ∀ s ∈ done, s.1 ∈ records ∧ s.2 < records.length := by
        intro s hs
        obtain ⟨hlt, hget⟩ := List.mem_zipIdx' (hperm.mem_iff.mp hs)
        exact ⟨hget ▸ List.getElem_mem hlt, hlt⟩
      obtain ⟨inserted, hinserted, hpermuted, hordered⟩ :=
        insertDescending_numbered
          (fun s hs => hcmp r (by simp) s.1 (List.mem_append_left _ (hmem s hs).1))
          (fun s hs => (hmem s hs).2) hpairwise
      refine ⟨inserted, ?_, ?_, hordered⟩
      · rw [List.foldl_append, ← hmap, hinserted]
        rfl
      · have hlast : (records ++ [r]).zipIdx = records.zipIdx ++ [(r, records.length)] := by
          simp [List.zipIdx_append]
        rw [hlast]
        exact hpermuted.trans ((hperm.cons _).trans (List.perm_append_singleton _ _).symm)
  obtain ⟨done, hmap, hperm, hpairwise⟩ := hfold
  refine ⟨done.reverse, ?_, done.reverse_perm.trans hperm, List.pairwise_reverse.mpr hpairwise⟩
  rw [List.map_reverse, hmap]
  rfl

end Insert

theorem comparePlaces_eq_lt_iff (t : SortTerm) {kind : ScalarKind} {a b : Value} :
    t.comparePlaces ((Family.scalar kind).place a) ((Family.scalar kind).place b) = .lt ↔
      t.Before a b := by
  have hkeys : t.compareKeys a.sortKey b.sortKey = .lt ↔
      t.direction = .ascending ∧ a.sortKey < b.sortKey ∨
        t.direction = .descending ∧ b.sortKey < a.sortKey := by
    unfold SortTerm.compareKeys
    cases t.direction <;> simp [compare_list_eq_lt_iff]
  constructor
  · intro h
    cases hnullA : a.isNull with
    | true =>
      cases hnullB : b.isNull with
      | true =>
        rw [Family.place_of_null hnullA, Family.place_of_null hnullB] at h
        cases h
      | false =>
        rw [Family.place_of_null hnullA, Family.place_of_value hnullB] at h
        refine .nullFirst ?_ hnullA hnullB
        by_contra hlast
        rw [SortTerm.comparePlaces, if_neg hlast] at h
        cases h
    | false =>
      cases hnullB : b.isNull with
      | true =>
        rw [Family.place_of_value hnullA, Family.place_of_null hnullB] at h
        refine .nullLast (fun hfirst => ?_) hnullA hnullB
        rw [SortTerm.comparePlaces, if_pos hfirst] at h
        cases h
      | false =>
        rw [Family.place_of_value hnullA, Family.place_of_value hnullB] at h
        rcases hkeys.mp h with ⟨hdirection, hlt⟩ | ⟨hdirection, hlt⟩
        · exact .ascending hdirection hnullA hnullB hlt
        · exact .descending hdirection hnullA hnullB hlt
  · intro h
    cases h with
    | nullFirst h ha hb =>
      rw [Family.place_of_null ha, Family.place_of_value hb]
      exact if_pos h
    | nullLast h ha hb =>
      rw [Family.place_of_value ha, Family.place_of_null hb]
      exact if_neg h
    | ascending h ha hb hab =>
      rw [Family.place_of_value ha, Family.place_of_value hb]
      exact hkeys.mpr (.inl ⟨h, hab⟩)
    | descending h ha hb hab =>
      rw [Family.place_of_value ha, Family.place_of_value hb]
      exact hkeys.mpr (.inr ⟨h, hab⟩)

theorem comparePlaces_eq_eq_iff (t : SortTerm) {kind : ScalarKind} {a b : Value}
    (ha : (Family.scalar kind).Admits a) (hb : (Family.scalar kind).Admits b) :
    t.comparePlaces ((Family.scalar kind).place a) ((Family.scalar kind).place b) = .eq ↔
      a = b := by
  constructor
  · intro h
    cases hnullA : a.isNull with
    | true =>
      cases hnullB : b.isNull with
      | true => rw [Value.eq_null_of_isNull hnullA, Value.eq_null_of_isNull hnullB]
      | false =>
        rw [Family.place_of_null hnullA, Family.place_of_value hnullB, SortTerm.comparePlaces] at h
        split_ifs at h
    | false =>
      cases hnullB : b.isNull with
      | true =>
        rw [Family.place_of_value hnullA, Family.place_of_null hnullB, SortTerm.comparePlaces] at h
        split_ifs at h
      | false =>
        have hkindA := Family.holds_scalar_iff.mp (ha.resolve_left (by simp [hnullA]))
        have hkindB := Family.holds_scalar_iff.mp (hb.resolve_left (by simp [hnullB]))
        rw [Family.place_of_value hnullA, Family.place_of_value hnullB] at h
        have hkey : a.sortKey = b.sortKey := by
          change t.compareKeys a.sortKey b.sortKey = .eq at h
          unfold SortTerm.compareKeys at h
          cases hdirection : t.direction <;> rw [hdirection] at h
          · exact Std.LawfulEqOrd.eq_of_compare h
          · exact (Std.LawfulEqOrd.eq_of_compare h).symm
        exact Value.eq_of_sortKey_eq hkindA hkindB hkey
  · rintro rfl
    exact Std.ReflCmp.compare_self

section Placed

variable {kinds : SortTerm → ScalarKind} {terms : List SortTerm} {a b : Record}
  (ha : Placed (fun t => .scalar (kinds t)) terms a)
  (hb : Placed (fun t => .scalar (kinds t)) terms b)
include ha hb

theorem comparePlaced_eq_eq_iff :
    comparePlaced (fun t => .scalar (kinds t)) terms a b = .eq ↔ Level terms a b := by
  induction terms with
  | nil => simp [comparePlaced, Level]
  | cons t rest ih =>
    have hrest := ih (fun u hu => ha u (List.mem_cons_of_mem t hu))
      fun u hu => hb u (List.mem_cons_of_mem t hu)
    have hterm := comparePlaces_eq_eq_iff t (ha t List.mem_cons_self) (hb t List.mem_cons_self)
    rw [comparePlaced, compareLex, Ordering.then_eq_eq, hterm, hrest]
    unfold Level
    rw [List.forall_mem_cons]

theorem comparePlaced_eq_lt_iff :
    comparePlaced (fun t => .scalar (kinds t)) terms a b = .lt ↔ Precedes terms a b := by
  induction terms with
  | nil => exact ⟨fun h => (by cases h), fun h => (by cases h)⟩
  | cons t rest ih =>
    have hrest := ih (fun u hu => ha u (List.mem_cons_of_mem t hu))
      fun u hu => hb u (List.mem_cons_of_mem t hu)
    have hterm := comparePlaces_eq_eq_iff t (ha t List.mem_cons_self) (hb t List.mem_cons_self)
    rw [comparePlaced, compareLex, Ordering.then_eq_lt, comparePlaces_eq_lt_iff, hterm, hrest]
    constructor
    · rintro (h | ⟨h, hlater⟩)
      · exact .first h
      · exact .later h hlater
    · rintro (h | ⟨h, hlater⟩)
      · exact .inl h
      · exact .inr ⟨h, hlater⟩

end Placed

/-- Records with values of one kind in each field that they are sorted by are arranged. -/
theorem sortRecords_arranged {terms : List SortTerm} {records : List Record}
    (h : Uniform terms records) : Arranged terms records (sortRecords terms records) := by
  choose! kinds hkinds using h
  have hplaced : ∀ r ∈ records, Placed (fun t => .scalar (kinds t)) terms r := by
    intro r hr t ht
    exact (hkinds t ht r hr).imp_right .scalar
  obtain ⟨numbered, hmap, hperm, hpairwise⟩ := sortRecords_numbered
    fun r hr s hs => compareRecords_eq (hplaced r hr) (hplaced s hs)
  have hmem : ∀ x ∈ numbered, x.1 ∈ records := by
    intro x hx
    obtain ⟨hlt, hget⟩ := List.mem_zipIdx' (hperm.mem_iff.mp hx)
    exact hget ▸ List.getElem_mem hlt
  refine ⟨numbered, hmap, hperm, hpairwise.imp_of_mem fun {x y} hx hy hxy => ?_⟩
  have hx := hplaced x.1 (hmem x hx)
  have hy := hplaced y.1 (hmem y hy)
  exact hxy.imp (comparePlaced_eq_lt_iff hx hy).mp
    (And.imp_left (comparePlaced_eq_eq_iff hx hy).mp)

end Include

end RelMap
