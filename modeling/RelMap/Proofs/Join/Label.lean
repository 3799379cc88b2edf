import RelMap.Proofs.Text.Split

/-! The labels that joined tables can be given: they are never in use before, and they consist
of initials of the words of the table, or of `t`, and digits. Such labels are plain: the names that
begin with them tell them apart. -/
namespace RelMap.Label

/-- The numbers after a base tell its labels apart. -/
theorem candidate_inj {base : String} {m n : Nat} (hm : 0 < m) (hn : 0 < n)
    (h : candidate base m = candidate base n) : m = n := by
  have hlist := congrArg String.toList h
  unfold candidate at hlist
  split_ifs at hlist with h1 h2 h2
  · omega
  · exact absurd hlist (by simp)
  · exact absurd hlist (by simp)
  · have hd : Nat.toDigits 10 m = Nat.toDigits 10 n := by
      simpa [Nat.toString_eq_ofList_toDigits] using hlist
    rw [← Nat.ofDigitChars_ten_toDigits (n := m), hd, Nat.ofDigitChars_ten_toDigits]

theorem le_firstFree (base : String) (n : Nat) (used : List String) :
    n ≤ firstFree base n used := by
  fun_induction firstFree base n used with
  | case1 n used hused ih => omega
  | case2 n used hfree => exact Nat.le_refl n

/-- The first free label is free. Labels left aside in the search have other numbers. -/
theorem candidate_firstFree_not_mem (base : String) {n : Nat} (used : List String) (hn : 0 < n) :
    candidate base (firstFree base n used) ∉ used := by
  fun_induction firstFree base n used with
  | case1 n used hused ih =>
    intro hmem
    have hne : candidate base (firstFree base (n + 1) (used.erase (candidate base n))) ≠
        candidate base n := by
      intro he
      have hle := le_firstFree base (n + 1) (used.erase (candidate base n))
      have := candidate_inj (by omega) hn he
      omega
    exact ih (by omega) ((List.mem_erase_of_ne hne).mpr hmem)
  | case2 n used hfree => exact hfree

theorem base_ne_nil (table : String) : (base table).toList ≠ [] := by
  unfold base
  dsimp only
  split_ifs with h
  · simp
  · simpa using h

theorem mem_base {table : String} {c : Char} (hc : c ∈ (base table).toList) :
    c = 't' ∨ c ≠ '_' ∧ c ∈ table.toList := by
  unfold base at hc
  dsimp only at hc
  split_ifs at hc with h
  · exact Or.inl (by simpa using hc)
  · right
    simp only [String.toList_ofList, List.mem_filterMap] at hc
    obtain ⟨word, hword, hhead⟩ := hc
    exact mem_of_mem_splitOn hword (List.mem_of_mem_head? hhead)

theorem candidate_ne_nil (table : String) (n : Nat) : (candidate (base table) n).toList ≠ [] := by
  unfold candidate
  split_ifs
  · exact base_ne_nil table
  · simp

/-- A label has no characters but those of the table that are no underscores, `t`, and digits. -/
theorem mem_candidate {table : String} {n : Nat} {c : Char}
    (hc : c ∈ (candidate (base table) n).toList) :
    c = 't' ∨ c.isDigit ∨ c ≠ '_' ∧ c ∈ table.toList := by
  unfold candidate at hc
  split_ifs at hc
  · rcases mem_base hc with h | h
    · exact Or.inl h
    · exact Or.inr (Or.inr h)
  · rw [String.toList_append, List.mem_append] at hc
    rcases hc with hc | hc
    · rcases mem_base hc with h | h
      · exact Or.inl h
      · exact Or.inr (Or.inr h)
    · right; left
      rw [Nat.toString_eq_ofList_toDigits, String.toList_ofList] at hc
      exact Nat.isDigit_of_mem_toDigits (by omega) (by omega) hc

/-- A label without a dot, whose first underscore, if it has one, is the whole label. -/
structure Plain (label : String) : Prop where
  ne_nil : label.toList ≠ []
  dot : '.' ∉ label.toList
  underscore : '_' ∈ label.toList → label.toList = ['_']

theorem eq_of_append_cons_eq {sep : Char} {a b x y : List Char} (ha : sep ∉ a) (hb : sep ∉ b)
    (h : a ++ sep :: x = b ++ sep :: y) : a = b := by
  have htake : ∀ c z, sep ∉ c → (c ++ sep :: z).takeWhile (· ≠ sep) = c := by
    intro c z hc
    have hpass : ∀ d ∈ c, decide (d ≠ sep) = true := by
      intro d hd
      rw [decide_eq_true_eq]
      rintro rfl
      exact hc hd
    rw [List.takeWhile_append_of_pos hpass, List.takeWhile_cons_of_neg (by simp), List.append_nil]
  rw [← htake a x ha, h, htake b y hb]

namespace Plain

variable {a b : String}

theorem underscore_mem_iff (ha : Plain a) : '_' ∈ a.toList ↔ a.toList.head? = some '_' := by
  constructor
  · intro h
    rw [ha.underscore h]
    rfl
  · exact List.mem_of_mem_head?

/-- Plain labels are told apart by texts that begin with them and an underscore. -/
theorem eq_of_append (ha : Plain a) (hb : Plain b) {x y : List Char}
    (h : a.toList ++ '_' :: x = b.toList ++ '_' :: y) : a = b := by
  have hhead : a.toList.head? = b.toList.head? := by
    rw [← List.head?_append_of_ne_nil a.toList ha.ne_nil, h,
      List.head?_append_of_ne_nil b.toList hb.ne_nil]
  apply String.toList_injective
  by_cases hmem : '_' ∈ a.toList
  · have hmem' : '_' ∈ b.toList := by
      rw [hb.underscore_mem_iff, ← hhead]
      exact ha.underscore_mem_iff.mp hmem
    rw [ha.underscore hmem, hb.underscore hmem']
  · have hmem' : '_' ∉ b.toList := by
      rw [hb.underscore_mem_iff, ← hhead]
      exact mt ha.underscore_mem_iff.mpr hmem
    exact eq_of_append_cons_eq hmem hmem' h

/-- What stands before a dot in a text that begins with a plain label and an underscore is no
plain label. -/
theorem append_ne_dotted (ha : Plain a) (hb : Plain b) (x y : List Char) :
    a.toList ++ '_' :: x ≠ b.toList ++ '.' :: y := by
  intro h
  rcases List.append_eq_append_iff.mp h with ⟨c, hc, hrest⟩ | ⟨c, hc, hrest⟩
  · cases c with
    | nil => simp at hrest
    | cons d c =>
      obtain ⟨rfl, -⟩ := List.cons.inj hrest
      have hsingle := hb.underscore (hc ▸ List.mem_append_right _ List.mem_cons_self)
      rw [hc] at hsingle
      have hlength := congrArg List.length hsingle
      have hpos := List.length_pos_of_ne_nil ha.ne_nil
      simp only [List.length_append, List.length_cons, List.length_nil] at hlength
      omega
  · cases c with
    | nil => simp at hrest
    | cons d c =>
      obtain ⟨rfl, -⟩ := List.cons.inj hrest
      exact ha.dot (hc ▸ List.mem_append_right _ List.mem_cons_self)

end Plain

/-- The labels given to a table without a dot are plain. -/
theorem candidate_plain {table : String} (hdot : '.' ∉ table.toList) (n : Nat) :
    Plain (candidate (base table) n) where
  ne_nil := candidate_ne_nil table n
  dot h := by
    rcases mem_candidate h with h | h | h
    · exact absurd h (by decide)
    · exact absurd h (by decide)
    · exact hdot h.2
  underscore h := by
    rcases mem_candidate h with h | h | h
    · exact absurd h (by decide)
    · exact absurd h (by decide)
    · exact absurd rfl h.1

end RelMap.Label
