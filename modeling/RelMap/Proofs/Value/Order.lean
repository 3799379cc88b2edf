import Mathlib.Data.String.Basic
import RelMap.Value.Order

/-!
The order of values. Values of one scalar kind are ordered by lists of numbers, the most significant
one first; what is not comparable one way is not comparable the other way either.
-/
namespace RelMap

section Compare

variable {α β : Type} [Ord α] [Ord β]

theorem compare_of_embedding [LT α] [DecidableEq α] [Std.LawfulEqOrd α] [Std.LawfulLTOrd α]
    [LT β] [DecidableEq β] [Std.LawfulEqOrd β] [Std.LawfulLTOrd β] [DecidableLT α] [DecidableLT β]
    {f : α → β} {a b : α} (hlt : f a < f b ↔ a < b) (heq : f a = f b ↔ a = b) :
    compare (f a) (f b) = compare a b := by
  have hf : compare (f a) (f b) = compareOfLessAndEq (f a) (f b) :=
    Std.LawfulLTCmp.eq_compareOfLessAndEq _ _
  have h : compare a b = compareOfLessAndEq a b := Std.LawfulLTCmp.eq_compareOfLessAndEq _ _
  rw [hf, h]
  simp only [compareOfLessAndEq, hlt, heq]

theorem compare_map {f : α → β} (h : ∀ a b, compare (f a) (f b) = compare a b) (l m : List α) :
    compare (l.map f) (m.map f) = compare l m := by
  induction l generalizing m with
  | nil => cases m <;> rfl
  | cons a l ih =>
    cases m with
    | nil => rfl
    | cons b m =>
      rw [List.map_cons, List.map_cons, List.compare_cons_cons, List.compare_cons_cons, h, ih]

/-- The order of lists is that of their first elements that differ. -/
theorem compare_list_eq_lt_iff [LT α] [Std.LawfulEqOrd α] [Std.LawfulLTOrd α] {l m : List α} :
    compare l m = .lt ↔ l < m := by
  induction l generalizing m with
  | nil => cases m <;> simp
  | cons a l ih =>
    cases m with
    | nil => simp
    | cons b m =>
      rw [List.compare_cons_cons, Ordering.then_eq_lt, ih, List.cons_lt_cons_iff,
        Std.LawfulLTCmp.eq_lt_iff_lt, Std.LawfulEqCmp.compare_eq_iff_eq]

instance lawfulLTOrd_list [LT α] [Std.LawfulEqOrd α] [Std.LawfulLTOrd α] :
    Std.LawfulLTOrd (List α) where
  eq_lt_iff_lt := compare_list_eq_lt_iff

end Compare

theorem compare_natCast (a b : Nat) : compare (a : Int) b = compare a b :=
  compare_of_embedding Int.ofNat_lt Int.ofNat_inj

theorem compare_toList (a b : String) : compare a.toList b.toList = compare a b :=
  compare_of_embedding String.lt_iff_toList_lt.symm String.toList_inj

theorem compare_toNat (a b : Char) : compare (a.toNat : Int) b.toNat = compare a b := by
  refine (compare_natCast _ _).trans (compare_of_embedding Iff.rfl ?_)
  exact Char.toNat_inj

theorem compare_octets (a b : UInt8) : compare (a.toNat : Int) b.toNat = compare a b := by
  refine (compare_natCast _ _).trans (compare_of_embedding Iff.rfl ?_)
  exact UInt8.toNat_inj

/-- The kinds of values of which every two are in an order, and the same only if they are equal. -/
inductive ScalarKind where
  | bool
  | int
  | text
  | bytes
  | date
  | dateTime
  | instant
  | time
  | uuid
  deriving DecidableEq, Inhabited

namespace Date

/-- The numbers that order dates. -/
def sortKey (d : Date) : List Int := [d.year, d.month, d.day]

theorem compare_sortKey (a b : Date) : Ord.compare a.sortKey b.sortKey = a.compare b := by
  simp [sortKey, Date.compare, List.compare_cons_cons, compare_natCast]

theorem sortKey_injective : Function.Injective sortKey := by
  intro a b h
  cases a
  cases b
  simpa [sortKey, Int.ofNat_inj] using h

end Date

namespace TimeOfDay

/-- The numbers that order times; a leap second comes after all of the second before. -/
def sortKey (t : TimeOfDay) : List Int := [t.hour, t.minute, t.second, t.nanosecond]

theorem compare_sortKey (a b : TimeOfDay) : Ord.compare a.sortKey b.sortKey = a.compare b := by
  simp [sortKey, TimeOfDay.compare, List.compare_cons_cons, compare_natCast]

theorem sortKey_injective : Function.Injective sortKey := by
  intro a b h
  cases a
  cases b
  simpa [sortKey, Int.ofNat_inj] using h

end TimeOfDay

namespace DateTime

def sortKey (t : DateTime) : List Int := t.date.sortKey ++ t.time.sortKey

theorem compare_sortKey (a b : DateTime) : Ord.compare a.sortKey b.sortKey = a.compare b := by
  rw [DateTime.compare, ← Date.compare_sortKey, ← TimeOfDay.compare_sortKey]
  simp [sortKey, Date.sortKey, TimeOfDay.sortKey, List.compare_cons_cons, Ordering.then_assoc]

theorem sortKey_injective : Function.Injective sortKey := by
  intro a b h
  obtain ⟨hdate, htime⟩ := List.append_inj h rfl
  cases a
  cases b
  rw [DateTime.mk.injEq]
  exact ⟨Date.sortKey_injective hdate, TimeOfDay.sortKey_injective htime⟩

end DateTime

namespace Value

theorem eq_null_of_isNull {value : Value} (h : value.isNull = true) : value = .null := by
  cases value <;> cases h
  rfl

/-- The kind of a value, unless not all values of its kind are in an order. -/
def scalarKind? : Value → Option ScalarKind
  | .bool _ => some .bool
  | .int _ => some .int
  | .text _ => some .text
  | .bytes _ => some .bytes
  | .date _ => some .date
  | .dateTime _ => some .dateTime
  | .instant _ => some .instant
  | .time _ => some .time
  | .uuid _ => some .uuid
  | _ => none

/-- The numbers by which values of one kind are ordered, the most significant one first: those of
the characters of a text, of the octets of a string of bytes, of the parts of a date. -/
def sortKey : Value → List Int
  | .bool b => [intOfBool b]
  | .int n => [n]
  | .float x => [x.rank]
  | .text s => s.toList.map fun c => (c.toNat : Int)
  | .bytes b => b.map fun octet => (octet.toNat : Int)
  | .date d => d.sortKey
  | .dateTime t => t.sortKey
  | .instant t => t.sortKey
  | .time t => t.sortKey
  | .uuid u => [u.bits.toNat]
  | _ => []

theorem compare_singleton (m n : Int) : compare [m] [n] = compare m n := by
  simp [List.compare_cons_cons]

/-- Values of one scalar kind are all comparable, by their numbers. -/
theorem compare?_of_scalarKind {a b : Value} {kind : ScalarKind} (ha : a.scalarKind? = some kind)
    (hb : b.scalarKind? = some kind) : a.compare? b = some (compare a.sortKey b.sortKey) := by
  cases kind <;> cases a <;> cases ha <;> cases b <;> cases hb <;>
    refine congrArg some ?_ <;> symm
  case bool b c => exact (by decide : ∀ b c, compare [intOfBool b] [intOfBool c] = compare b c) b c
  case int m n => exact compare_singleton m n
  case text s t => exact (compare_map compare_toNat _ _).trans (compare_toList s t)
  case bytes l m => exact compare_map compare_octets l m
  case date c d => exact Date.compare_sortKey c d
  case dateTime t u => exact DateTime.compare_sortKey t u
  case instant t u => exact DateTime.compare_sortKey t u
  case time t u => exact TimeOfDay.compare_sortKey t u
  case uuid u v => exact (compare_singleton _ _).trans (compare_natCast _ _)

/-- Values of one scalar kind are the same if their numbers are. -/
theorem eq_of_sortKey_eq {a b : Value} {kind : ScalarKind} (ha : a.scalarKind? = some kind)
    (hb : b.scalarKind? = some kind) (h : a.sortKey = b.sortKey) : a = b := by
  have hmap : ∀ {α : Type} {f : α → Nat} {l m : List α}, Function.Injective f →
      l.map (fun x => (f x : Int)) = m.map (fun x => (f x : Int)) → l = m := by
    intro α f l m hf hlm
    exact List.map_injective_iff.mpr (fun x y hxy => hf (Int.ofNat_inj.mp hxy)) hlm
  cases kind <;> cases a <;> cases ha <;> cases b <;> cases hb <;> refine congrArg _ ?_
  case bool b c => revert h; revert b c; decide
  case int m n => simpa [sortKey] using h
  case text s t => exact String.toList_inj.mp (hmap (fun _ _ => Char.toNat_inj.mp) h)
  case bytes l m => exact hmap (fun _ _ => UInt8.toNat_inj.mp) h
  case date c d => exact Date.sortKey_injective h
  case dateTime t u => exact DateTime.sortKey_injective h
  case instant t u => exact DateTime.sortKey_injective h
  case time t u => exact TimeOfDay.sortKey_injective h
  case uuid u v =>
    have hbits : u.bits.toNat = v.bits.toNat := by simpa [sortKey, Int.ofNat_inj] using h
    rw [Uuid.mk.injEq]
    exact BitVec.eq_of_toNat_eq hbits

end Value

theorem Binary64.compare?_swap (x y : Binary64) :
    y.compare? x = (x.compare? y).map Ordering.swap := by
  unfold compare?
  rw [Bool.or_comm]
  split_ifs
  · rfl
  · exact congrArg some Std.OrientedOrd.eq_swap

theorem Binary64.equal_comm (x y : Binary64) : x.equal y = y.equal x := by
  unfold equal
  rw [compare?_swap x y]
  cases x.compare? y with
  | none => rfl
  | some order => cases order <;> rfl

mutual
theorem Json.equal_comm (a b : Json) : a.equal b = b.equal a := by
  cases a <;> cases b <;> simp only [Json.equal]
  case bool.bool | int.int | str.str => exact BEq.comm
  case float.float x y => exact Binary64.equal_comm x y
  case arr.arr as bs => exact Json.equalItems_comm as bs
  case obj.obj as bs => exact Json.equalEntries_comm as bs
termination_by sizeOf a

theorem Json.equalItems_comm (as bs : List Json) :
    Json.equalItems as bs = Json.equalItems bs as := by
  cases as <;> cases bs <;> simp only [Json.equalItems]
  case cons.cons a as b bs => rw [Json.equal_comm a b, Json.equalItems_comm as bs]
termination_by sizeOf as

theorem Json.equalEntries_comm (as bs : List (String × Json)) :
    Json.equalEntries as bs = Json.equalEntries bs as := by
  cases as <;> cases bs <;> simp only [Json.equalEntries]
  case cons.cons a as b bs =>
    obtain ⟨k, a⟩ := a
    rw [Json.equal_comm a b.2, Json.equalEntries_comm as bs, BEq.comm]
termination_by sizeOf as
end

/-- What is comparable one way is comparable the other way, in the opposite order. -/
theorem Value.compare?_swap (a b : Value) : b.compare? a = (a.compare? b).map Ordering.swap := by
  cases a <;> cases b <;>
    simp only [compare?, hasCanonicalText, if_true, if_false, Bool.false_eq_true, Option.map_some,
      Option.map_none, Option.some.injEq, Ordering.swap_eq]
  case int.float | float.int | float.float => exact Binary64.compare?_swap _ _
  case json.json j k =>
    rw [Json.equal_comm]
    split_ifs <;> rfl
  case date.date c d => rw [← Date.compare_sortKey, ← Date.compare_sortKey, Std.OrientedOrd.eq_swap]
  case dateTime.dateTime t u | instant.instant t u =>
    rw [← DateTime.compare_sortKey, ← DateTime.compare_sortKey, Std.OrientedOrd.eq_swap]
  case time.time t u =>
    rw [← TimeOfDay.compare_sortKey, ← TimeOfDay.compare_sortKey, Std.OrientedOrd.eq_swap]
  -- All that is left compares numbers or texts, whichever of the two is made from its value.
  all_goals exact Std.OrientedOrd.eq_swap

namespace Value

theorem looselyEqual_comm (a b : Value) : a.looselyEqual b = b.looselyEqual a := by
  have heq : (b.compare? a == some .eq) = (a.compare? b == some .eq) := by
    rw [compare?_swap a b]
    cases a.compare? b with
    | none => rfl
    | some order => cases order <;> rfl
  unfold looselyEqual
  rw [heq]
  -- Of two values that are not both `NULL`, or both not, none compares equal to the other.
  cases a <;> cases b <;> rfl

/-- What is comparable one way is comparable the other way, in the opposite order, so that values
are loosely equal both ways or neither way. Any two values of one scalar kind are comparable, and
only equal ones are in one place; an order that holds from one value to the next and from there to a
third one holds from the first to the third. -/
theorem compare?_linear :
    (∀ a b : Value, b.compare? a = (a.compare? b).map Ordering.swap ∧
      a.looselyEqual b = b.looselyEqual a) ∧
    ∀ (kind : ScalarKind) (a b c : Value), a.scalarKind? = some kind → b.scalarKind? = some kind →
      c.scalarKind? = some kind → ∃ ab bc ac, a.compare? b = some ab ∧ b.compare? c = some bc ∧
        a.compare? c = some ac ∧ (ab = .eq ↔ a = b) ∧ (ab = bc → ac = ab) ∧
        (ab.isLE = true → bc.isLE = true → ac.isLE = true) := by
  refine ⟨fun a b => ⟨compare?_swap a b, looselyEqual_comm a b⟩, fun kind a b c ha hb hc => ?_⟩
  refine ⟨_, _, _, compare?_of_scalarKind ha hb, compare?_of_scalarKind hb hc,
    compare?_of_scalarKind ha hc, ?_, ?_, Std.TransCmp.isLE_trans⟩
  · rw [Std.LawfulEqCmp.compare_eq_iff_eq]
    exact ⟨eq_of_sortKey_eq ha hb, congrArg sortKey⟩
  · intro heq
    cases hab : compare a.sortKey b.sortKey with
    | lt => exact Std.TransCmp.lt_trans hab (heq ▸ hab)
    | eq => exact Std.TransCmp.eq_trans hab (heq ▸ hab)
    | gt => exact Std.TransCmp.gt_trans hab (heq ▸ hab)

/-- Midnight, the end of the last second of a day, and the leap second after it. -/
theorem compare?_linear_leapSecond :
    let a := time ⟨0, 0, 0, 0⟩
    let b := time ⟨23, 59, 59, 999999999⟩
    let c := time ⟨23, 59, 59, 1000000000⟩
    a.scalarKind? = some .time ∧ b.scalarKind? = some .time ∧ c.scalarKind? = some .time ∧
    ∃ ab bc ac, a.compare? b = some ab ∧ b.compare? c = some bc ∧ a.compare? c = some ac ∧
      (ab = .eq ↔ a = b) ∧ (ab = bc → ac = ab) ∧
      (ab.isLE = true → bc.isLE = true → ac.isLE = true) :=
  ⟨rfl, rfl, rfl, compare?_linear.2 .time _ _ _ rfl rfl rfl⟩

end Value

end RelMap
