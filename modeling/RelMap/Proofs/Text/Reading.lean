import Mathlib.Algebra.Group.Nat.Defs
import Mathlib.Data.List.Basic
import RelMap.Text.Basic

/-! Reading texts back: a word up to where its characters end, numerals, and lists between a
separator and what closes them. -/
namespace RelMap.Text

/-- A text that is over, or goes on with none of the characters of a word. -/
def Ends (isWord : Char → Bool) (rest : List Char) : Prop := ∀ c ∈ rest.head?, isWord c = false

theorem ends_nil (isWord : Char → Bool) : Ends isWord [] := by simp [Ends]

theorem ends_cons {isWord : Char → Bool} {c : Char} {rest : List Char} :
    Ends isWord (c :: rest) ↔ isWord c = false := by simp [Ends]

theorem takeWhile_of_ends {isWord : Char → Bool} {a x : List Char}
    (ha : ∀ c ∈ a, isWord c = true) (hx : Ends isWord x) : (a ++ x).takeWhile isWord = a := by
  rw [List.takeWhile_append_of_pos ha]
  cases x with
  | nil => simp
  | cons c x => rw [List.takeWhile_cons_of_neg (by simp [ends_cons.mp hx]), List.append_nil]

theorem dropWhile_of_ends {isWord : Char → Bool} {a x : List Char}
    (ha : ∀ c ∈ a, isWord c = true) (hx : Ends isWord x) : (a ++ x).dropWhile isWord = x := by
  rw [List.dropWhile_append_of_pos ha]
  cases x with
  | nil => rfl
  | cons c x => rw [List.dropWhile_cons_of_neg (by simp [ends_cons.mp hx])]

/-- A word is told from whatever follows it. -/
theorem eq_of_append_eq {isWord : Char → Bool} {a b x y : List Char}
    (ha : ∀ c ∈ a, isWord c = true) (hb : ∀ c ∈ b, isWord c = true) (hx : Ends isWord x)
    (hy : Ends isWord y) (h : a ++ x = b ++ y) : a = b ∧ x = y := by
  have hab : a = b := by rw [← takeWhile_of_ends ha hx, h, takeWhile_of_ends hb hy]
  subst hab
  exact ⟨rfl, List.append_cancel_left h⟩

theorem Ends.mono {isWord isMore : Char → Bool} {rest : List Char}
    (hmore : ∀ c, isWord c = true → isMore c = true) (h : Ends isMore rest) : Ends isWord rest := by
  intro c hc
  refine Bool.eq_false_iff.mpr fun hword => ?_
  have hmoreTrue := hmore c hword
  rw [h c hc] at hmoreTrue
  cases hmoreTrue

/-- The characters that are none of these marks. -/
def outside (marks : List Char) (c : Char) : Bool := c ∉ marks

theorem outside_of_isWord {isWord : Char → Bool} {marks : List Char} {c : Char}
    (hmarks : marks.any isWord = false) (hc : isWord c = true) : outside marks c = true := by
  refine decide_eq_true fun hmark => ?_
  exact List.any_eq_false.mp hmarks c hmark hc

section
variable {α : Type} {text : α → String} {isWord : Char → Bool}

/-- Two things that are told apart by any texts that begin with theirs and then end. -/
def Told (isWord : Char → Bool) (text : α → String) (a b : α) : Prop :=
  ∀ s t : List Char, Ends isWord s → Ends isWord t → (text a).toList ++ s = (text b).toList ++ t →
    a = b ∧ s = t

theorem Told.eq {a b : α} (h : Told isWord text a b) (htext : text a = text b) : a = b :=
  (h [] [] (ends_nil _) (ends_nil _) (by rw [htext])).1

/-- What follows the first of several texts that are joined and closed. -/
private def closedAfter (text : α → String) (separator : String) (close : Char) (rest : List α)
    (s : List Char) : List Char :=
  if rest = [] then close :: s
  else separator.toList ++ ((joinWith separator (rest.map text)).toList ++ close :: s)

private theorem joinWith_eq_closedAfter {separator : String} {close : Char} {s : List Char} (a : α)
    (rest : List α) :
    (joinWith separator ((a :: rest).map text)).toList ++ close :: s =
      (text a).toList ++ closedAfter text separator close rest s := by
  cases rest with
  | nil => simp [closedAfter, joinWith]
  | cons b rest => simp [closedAfter, joinWith, List.append_assoc]

theorem Told.mono {isMore : Char → Bool} {a b : α} (hmore : ∀ c, isWord c = true → isMore c = true)
    (h : Told isWord text a b) : Told isMore text a b :=
  fun s t hs ht => h s t (hs.mono hmore) (ht.mono hmore)

theorem Told.symm {a b : α} (h : Told isWord text a b) : Told isWord text b a := by
  intro s t hs ht heq
  obtain ⟨rfl, rfl⟩ := h t s ht hs heq.symm
  exact ⟨rfl, rfl⟩

/-- A list is told from its texts between separators, up to what closes it. -/
theorem eq_of_joinWith_close {separator : String} {comma close : Char} {more : List Char}
    (hseparator : separator.toList = comma :: more) (hcomma : isWord comma = false)
    (hclose : isWord close = false) (hne : comma ≠ close) {as bs : List α} {s t : List Char}
    (htold : ∀ (i : Nat) (a b : α), as[i]? = some a → bs[i]? = some b → Told isWord text a b)
    (hhead : ∀ a, a ∈ as ∨ a ∈ bs → ∃ c rest, (text a).toList = c :: rest ∧ c ≠ close)
    (h : (joinWith separator (as.map text)).toList ++ close :: s =
      (joinWith separator (bs.map text)).toList ++ close :: t) : as = bs ∧ s = t := by
  have hends : ∀ (rest : List α) (s : List Char),
      Ends isWord (closedAfter text separator close rest s) := by
    intro rest s
    unfold closedAfter
    split_ifs
    · exact ends_cons.mpr hclose
    · rw [hseparator]
      exact ends_cons.mpr hcomma
  induction as generalizing bs with
  | nil =>
    cases bs with
    | nil => exact ⟨rfl, (List.cons.inj h).2⟩
    | cons b bs =>
      obtain ⟨c, rest, hc, hcclose⟩ := hhead b (.inr List.mem_cons_self)
      rw [joinWith_eq_closedAfter, hc] at h
      exact absurd (List.cons.inj h).1.symm hcclose
  | cons a as ih =>
    cases bs with
    | nil =>
      obtain ⟨c, rest, hc, hcclose⟩ := hhead a (.inl List.mem_cons_self)
      rw [joinWith_eq_closedAfter, hc] at h
      exact absurd (List.cons.inj h).1 hcclose
    | cons b bs =>
      rw [joinWith_eq_closedAfter, joinWith_eq_closedAfter] at h
      obtain ⟨rfl, hafter⟩ := htold 0 a b rfl rfl _ _ (hends as s) (hends bs t) h
      unfold closedAfter at hafter
      rw [hseparator] at hafter
      split_ifs at hafter with has hbs hbs
      · rw [has, hbs]
        exact ⟨rfl, (List.cons.inj hafter).2⟩
      · exact absurd (List.cons.inj hafter).1.symm hne
      · exact absurd (List.cons.inj hafter).1 hne
      · have hrest : as = bs ∧ s = t := by
          refine ih (fun i => htold (i + 1)) (fun c hc => hhead c ?_) ?_
          · exact hc.imp (List.mem_cons_of_mem a) (List.mem_cons_of_mem a)
          · rw [← hseparator] at hafter
            exact List.append_cancel_left hafter
        exact ⟨congrArg (a :: ·) hrest.1, hrest.2⟩

end

/-! Numerals. -/

theorem toList_toString (n : Nat) : (toString n).toList = Nat.toDigits 10 n := by
  rw [Nat.toString_eq_ofList_toDigits, String.toList_ofList]

theorem toString_ne_nil (n : Nat) : (toString n).toList ≠ [] := by
  rw [toList_toString]
  exact Nat.toDigits_ne_nil

theorem isDigit_of_mem_toString {n : Nat} {c : Char} (hc : c ∈ (toString n).toList) :
    c.isDigit = true := by
  rw [toList_toString] at hc
  exact Nat.isDigit_of_mem_toDigits (by decide) (by decide) hc

theorem ofDigitChars_toString (n : Nat) : Nat.ofDigitChars 10 (toString n).toList 0 = n := by
  rw [toList_toString, Nat.ofDigitChars_ten_toDigits]

theorem isDigit_of_mem_padded {width n : Nat} {c : Char} (hc : c ∈ (padded width n).toList) :
    c.isDigit = true := by
  unfold padded at hc
  dsimp only at hc
  rw [String.toList_append, String.toList_ofList, List.mem_append] at hc
  rcases hc with hzero | hdigit
  · rw [List.eq_of_mem_replicate hzero]
    rfl
  · exact isDigit_of_mem_toString hdigit

/-- Padded digits are told from what precedes them. -/
theorem ends_padded (width n : Nat) (rest : List Char) :
    Ends (fun c => !c.isDigit) ((padded width n).toList ++ rest) := by
  cases hdigits : (padded width n).toList with
  | nil =>
    unfold padded at hdigits
    dsimp only at hdigits
    rw [String.toList_append] at hdigits
    exact absurd (List.append_eq_nil_iff.mp hdigits).2 (toString_ne_nil n)
  | cons c digits =>
    have hdigit : c.isDigit = true :=
      isDigit_of_mem_padded (hdigits ▸ List.mem_cons_self : c ∈ (padded width n).toList)
    exact ends_cons.mpr (by simp [hdigit])

/-- Zeros on the left do not change a number. -/
theorem ofDigitChars_padded (width n : Nat) :
    Nat.ofDigitChars 10 (padded width n).toList 0 = n := by
  unfold padded
  dsimp only
  rw [String.toList_append, String.toList_ofList, Nat.ofDigitChars_append,
    Nat.ofDigitChars_replicate_zero, Nat.mul_zero, ofDigitChars_toString]

theorem padded_inj {width width' m n : Nat}
    (h : (padded width m).toList = (padded width' n).toList) : m = n := by
  rw [← ofDigitChars_padded width m, h, ofDigitChars_padded]

theorem length_padded {width n : Nat} (hwidth : 0 < width) (hn : n < 10 ^ width) :
    (padded width n).toList.length = width := by
  have hlength : (Nat.toDigits 10 n).length ≤ width :=
    (Nat.length_toDigits_le_iff (by decide) hwidth).mpr hn
  unfold padded
  dsimp only
  rw [String.toList_append, String.toList_ofList, List.length_append, List.length_replicate,
    ← String.length_toList, toList_toString]
  omega

theorem toList_toString_int (n : Int) :
    (toString n).toList = (if n < 0 then ['-'] else []) ++ (toString n.natAbs).toList := by
  rw [Int.toString_eq_repr, Int.repr_eq_if]
  split_ifs with hneg hpos hpos
  · omega
  · rw [List.nil_append, show n.toNat = n.natAbs by omega]
    rfl
  · rw [String.toList_append, show (-n).toNat = n.natAbs by omega]
    rfl
  · omega

theorem toString_int_ne_nil (n : Int) : (toString n).toList ≠ [] := by
  rw [toList_toString_int]
  exact List.append_ne_nil_of_right_ne_nil _ (toString_ne_nil _)

theorem mem_toString_int {n : Int} {c : Char} (hc : c ∈ (toString n).toList) :
    c = '-' ∨ c.isDigit = true := by
  rw [toList_toString_int, List.mem_append] at hc
  rcases hc with hsign | hdigit
  · split_ifs at hsign
    · exact .inl (List.mem_singleton.mp hsign)
    · cases hsign
  · exact .inr (isDigit_of_mem_toString hdigit)

/-- A sign is told from the digits behind it. -/
theorem eq_of_sign_append {signed signed' : Prop} [Decidable signed] [Decidable signed']
    {sign : Char} {a b : List Char} (ha : a.head? ≠ some sign) (hb : b.head? ≠ some sign)
    (h : (if signed then [sign] else []) ++ a = (if signed' then [sign] else []) ++ b) :
    (signed ↔ signed') ∧ a = b := by
  split_ifs at h with hsigned hsigned' hsigned'
  · exact ⟨by simp [hsigned, hsigned'], (List.cons.inj h).2⟩
  · exact absurd (by rw [← List.nil_append b, ← h]; rfl) hb
  · exact absurd (by rw [← List.nil_append a, h]; rfl) ha
  · exact ⟨by simp [hsigned, hsigned'], h⟩

theorem head?_toString_ne {n : Nat} {c : Char} (hc : c.isDigit = false) :
    (toString n).toList.head? ≠ some c := by
  intro h
  have hdigit := isDigit_of_mem_toString (List.mem_of_mem_head? h)
  rw [hc] at hdigit
  cases hdigit

theorem toString_int_inj {m n : Int} (h : toString m = toString n) : m = n := by
  have hlist := congrArg String.toList h
  rw [toList_toString_int, toList_toString_int] at hlist
  obtain ⟨hsign, hdigits⟩ := eq_of_sign_append (head?_toString_ne rfl) (head?_toString_ne rfl) hlist
  have habs : m.natAbs = n.natAbs := by
    rw [← ofDigitChars_toString m.natAbs, hdigits, ofDigitChars_toString]
  omega

end RelMap.Text
