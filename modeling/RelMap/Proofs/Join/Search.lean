import Mathlib.Data.Finset.Card
import Mathlib.Order.Interval.Finset.Nat
import RelMap.Proofs.Join.Run

/-! The search for the label of a table, turn by turn. The labels on one base are all unlike one
another, so that no more turns are lost than there are labels in use. -/
namespace RelMap
namespace Label

/-- The words of a table: what stands between its underscores, where anything does. -/
def words (table : String) : List (List Char) := (table.toList.splitOn '_').filter (· ≠ [])

theorem toList_base (table : String) : (base table).toList =
    if words table = [] then ['t'] else (words table).filterMap List.head? := by
  have hinitials : ∀ parts : List (List Char),
      (parts.filter (· ≠ [])).filterMap List.head? = parts.filterMap List.head? := by
    intro parts
    rw [List.filterMap_filter]
    refine List.filterMap_congr fun part _ => ?_
    cases part <;> rfl
  have hempty : (table.toList.splitOn '_').filterMap List.head? = [] ↔ words table = [] := by
    rw [words, List.filterMap_eq_nil_iff, List.filter_eq_nil_iff]
    simp
  unfold base
  simp only [List.isEmpty_iff, hempty]
  split_ifs
  · rfl
  · rw [String.toList_ofList, words, hinitials]

section
variable {base : String} {m n : Nat} {used : List String}

theorem candidate_eq_or (base : String) (n : Nat) :
    candidate base n = base ∨ ∃ k, 2 ≤ k ∧ candidate base n = base ++ toString k := by
  unfold candidate
  split_ifs with h
  · exact Or.inl rfl
  · exact Or.inr ⟨n, by omega, rfl⟩

/-- The labels passed over in a search are in use. -/
theorem candidate_mem_of_lt_firstFree (hle : n ≤ m) (hlt : m < firstFree base n used) :
    candidate base m ∈ used := by
  fun_induction firstFree base n used with
  | case1 n used hused ih =>
    rcases Nat.eq_or_lt_of_le hle with rfl | hnext
    · exact hused
    · exact List.mem_of_mem_erase (ih hnext hlt)
  | case2 n used hfree => omega

/-- A search that passes over a label goes on as one that begins behind it. -/
theorem firstFree_of_mem (hn : 0 < n) (h : candidate base n ∈ used) :
    firstFree base n used = firstFree base (n + 1) used := by
  have hfree := candidate_firstFree_not_mem base used hn
  have hle : n + 1 ≤ firstFree base n used := by
    rcases Nat.eq_or_lt_of_le (le_firstFree base n used) with heq | hlt
    · exact absurd (heq ▸ h) hfree
    · exact hlt
  have hle' := le_firstFree base (n + 1) used
  rcases Nat.lt_trichotomy (firstFree base n used) (firstFree base (n + 1) used) with
    hlt | heq | hgt
  · exact absurd (candidate_mem_of_lt_firstFree hle hlt) hfree
  · exact heq
  · exact absurd (candidate_mem_of_lt_firstFree (by omega) hgt)
      (candidate_firstFree_not_mem base used (Nat.succ_pos n))

theorem firstFree_of_not_mem (h : candidate base n ∉ used) : firstFree base n used = n := by
  rw [firstFree, if_neg h]

/-- No more labels are passed over than are in use. -/
theorem firstFree_le (base : String) (used : List String) (hn : 0 < n) :
    firstFree base n used ≤ n + used.toFinset.card := by
  have hmaps : ∀ m ∈ Finset.Ico n (firstFree base n used), candidate base m ∈ used.toFinset := by
    intro m hm
    obtain ⟨hle, hlt⟩ := Finset.mem_Ico.mp hm
    exact List.mem_toFinset.mpr (candidate_mem_of_lt_firstFree hle hlt)
  have hinj : Set.InjOn (candidate base) (Finset.Ico n (firstFree base n used)) := by
    intro a ha b hb h
    have ha' := (Finset.mem_Ico.mp ha).1
    have hb' := (Finset.mem_Ico.mp hb).1
    exact candidate_inj (by omega) (by omega) h
  have hcard := Finset.card_le_card_of_injOn (candidate base) hmaps hinj
  rw [Nat.card_Ico] at hcard
  omega

end
end Label

namespace Planner

/-- The number of labels that have been tried on a base. -/
def count (p : Planner) (base : String) : Nat := (OrderedMap.find? base p.counts).getD 0

/-- A planner that has tried this many labels on a base. -/
def counted (p : Planner) (base : String) (n : Nat) : Planner :=
  { p with counts := OrderedMap.insert base n p.counts }

/-- One turn of a search on a base. The next label is tried, and taken if it is free. -/
def turn (p : Planner) (base : String) : Option String × Planner :=
  let n := p.count base + 1
  let label := Label.candidate base n
  let p := p.counted base n
  if label ∈ p.used then (none, p) else (some label, { p with used := label :: p.used })

/-- The label that a search on a base takes within some turns, and the planner after them. -/
def search? (base : String) : Nat → Planner → Option (String × Planner)
  | 0, _ => none
  | turns + 1, p =>
    match p.turn base with
    | (some label, p) => some (label, p)
    | (none, p) => search? base turns p

section
variable (p : Planner) (base table : String) (n : Nat)

theorem count_counted : (p.counted base n).count base = n := by
  rw [count, counted, OrderedMap.find?_insert, if_pos rfl, Option.getD_some]

theorem counted_counted (m : Nat) : (p.counted base n).counted base m = p.counted base m := by
  unfold counted
  dsimp only
  rw [OrderedMap.insert_insert]

/-- The number of the label that a table is given. -/
def freshNumber : Nat :=
  Label.firstFree (Label.base table) (p.count (Label.base table) + 1) p.used

theorem freshLabel_eq_candidate : p.freshLabel table =
    (Label.candidate (Label.base table) (p.freshNumber table),
      { p.counted (Label.base table) (p.freshNumber table) with
        used := Label.candidate (Label.base table) (p.freshNumber table) :: p.used }) := rfl

theorem count_lt_freshNumber : p.count (Label.base table) < p.freshNumber table :=
  Label.le_firstFree (Label.base table) _ p.used

end

/-- A search that is given the turns up to the first free label takes it. -/
theorem search?_eq {p : Planner} {table : String} {turns : Nat}
    (h : p.freshNumber table ≤ p.count (Label.base table) + turns) :
    search? (Label.base table) turns p = some (p.freshLabel table) := by
  induction turns generalizing p with
  | zero =>
    have := p.count_lt_freshNumber table
    omega
  | succ turns ih =>
    rw [search?, turn]
    split_ifs with hused
    · -- The label is taken: the search goes on from a planner that is asked for the same label.
      have hnumber : (p.counted (Label.base table) (p.count (Label.base table) + 1)).freshNumber
          table = p.freshNumber table := by
        rw [freshNumber, count_counted]
        exact (Label.firstFree_of_mem (Nat.succ_pos _) hused).symm
      refine (ih ?_).trans ?_
      · rw [hnumber, count_counted]
        omega
      · rw [freshLabel_eq_candidate, freshLabel_eq_candidate, hnumber, counted_counted]
        rfl
    · have hnumber : p.freshNumber table = p.count (Label.base table) + 1 :=
        Label.firstFree_of_not_mem hused
      rw [freshLabel_eq_candidate, hnumber]
      rfl

/-- Whatever labels are in use and have been tried, a search takes no more turns than one for each
label in use and another one. It ends with the initials of the words of the table, `t` if there are
none, or with these and a number from two on. This label was not in use before, and it is the only
one that is in use after the search and was not before. -/
theorem search?_freshLabel (p : Planner) (table : String) :
    search? (Label.base table) (p.used.toFinset.card + 1) p = some (p.freshLabel table) ∧
    (Label.base table).toList = (if Label.words table = [] then ['t']
      else (Label.words table).filterMap List.head?) ∧
    ((p.freshLabel table).1 = Label.base table ∨
      ∃ n, 2 ≤ n ∧ (p.freshLabel table).1 = Label.base table ++ toString n) ∧
    (p.freshLabel table).1 ∉ p.used ∧
    (p.freshLabel table).2.used = (p.freshLabel table).1 :: p.used := by
  have hturns : p.freshNumber table ≤ p.count (Label.base table) + 1 + p.used.toFinset.card :=
    Label.firstFree_le _ p.used (Nat.succ_pos _)
  exact ⟨search?_eq (by omega), Label.toList_base table,
    Label.candidate_eq_or _ (p.freshNumber table), p.freshLabel_not_used table, rfl⟩

end Planner
end RelMap
