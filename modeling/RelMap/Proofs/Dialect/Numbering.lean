import Mathlib.Data.List.Induction
import RelMap.Proofs.Dialect.Identifier

/-! The numbering of placeholders, told by positions. A question mark counts where all quotes before
it are closed; the numbering replaces each of these by its number and keeps every other character,
and it can be carried out fragment by fragment. -/
namespace RelMap.Placeholder

/-- The characters between which nothing is a placeholder. -/
def quotes : List Char := ['\'', '"', '\x60']

/-- The texts that leave no quote open: made of characters that are no quotes, and of parts between
two quotes of a kind without a third one of this kind inside. -/
inductive Outside : List Char → Prop where
  | nil : Outside []
  | plain {before : List Char} {c : Char} (h : Outside before) (hc : c ∉ quotes) :
      Outside (before ++ [c])
  | quoted {before inner : List Char} {q : Char} (h : Outside before) (hq : q ∈ quotes)
      (hinner : q ∉ inner) : Outside (before ++ q :: (inner ++ [q]))

theorem isQuote_iff (c : Char) : isQuote c = true ↔ c ∈ quotes := by
  simp [isQuote, quotes, or_assoc]

theorem openAfter_of_not_mem {q : Char} {inner : List Char} (h : q ∉ inner) :
    openAfter (some q) inner = some q := by
  induction inner with
  | nil => rfl
  | cons c inner ih =>
    have hc : c ≠ q := fun hc => h (hc ▸ List.mem_cons_self)
    have hstep : quoteAfter (some q) c = some q := if_neg hc
    rw [openAfter, List.foldl_cons, hstep]
    exact ih fun hq => h (List.mem_cons_of_mem c hq)

/-- A quote that is open was opened where none was, and has not come again. -/
theorem outside_of_openAfter (text : List Char) :
    (openAfter none text = none → Outside text) ∧
    ∀ q, openAfter none text = some q → q ∈ quotes ∧
      ∃ before inner, text = before ++ q :: inner ∧ Outside before ∧ q ∉ inner := by
  induction text using List.reverseRecOn with
  | nil => exact ⟨fun _ => .nil, fun q h => by cases h⟩
  | append_singleton text c ih =>
    obtain ⟨houtside, hinside⟩ := ih
    have hlast : openAfter none (text ++ [c]) = quoteAfter (openAfter none text) c := by
      rw [openAfter_append]
      rfl
    rw [hlast]
    cases hopen : openAfter none text with
    | none =>
      have htext : Outside text := houtside hopen
      by_cases hc : c ∈ quotes
      · have hstep : quoteAfter none c = some c := if_pos ((isQuote_iff c).mpr hc)
        rw [hstep]
        constructor
        · intro h
          cases h
        · intro q h
          obtain rfl := Option.some.inj h
          exact ⟨hc, text, [], rfl, htext, List.not_mem_nil⟩
      · have hstep : quoteAfter none c = none := if_neg (mt (isQuote_iff c).mp hc)
        rw [hstep]
        constructor
        · intro _
          exact htext.plain hc
        · intro q h
          cases h
    | some q =>
      obtain ⟨hq, before, inner, htext, hbefore, hinner⟩ := hinside q hopen
      have hwhole : text ++ [c] = before ++ q :: (inner ++ [c]) := by simp [htext]
      by_cases hc : c = q
      · have hstep : quoteAfter (some q) c = none := if_pos hc
        rw [hstep, hwhole, hc]
        constructor
        · intro _
          exact hbefore.quoted hq hinner
        · intro q' h
          cases h
      · have hstep : quoteAfter (some q) c = some q := if_neg hc
        rw [hstep]
        constructor
        · intro h
          cases h
        · intro q' h
          obtain rfl := Option.some.inj h
          have hnew : q ∉ inner ++ [c] := by simp [hinner, Ne.symm hc]
          exact ⟨hq, before, inner ++ [c], hwhole, hbefore, hnew⟩

theorem outside_iff (text : List Char) : Outside text ↔ openAfter none text = none := by
  constructor
  · intro h
    induction h with
    | nil => rfl
    | @plain before c _ hc ih =>
      rw [openAfter_append, ih]
      exact if_neg (mt (isQuote_iff c).mp hc)
    | @quoted before inner q _ hq hinner ih =>
      have hopen : openAfter none [q] = some q := if_pos ((isQuote_iff q).mpr hq)
      have hclose : openAfter (some q) [q] = none := if_pos rfl
      rw [openAfter_append, ih, ← List.singleton_append, openAfter_append, hopen, openAfter_append,
        openAfter_of_not_mem hinner, hclose]
  · exact (outside_of_openAfter text).1

instance (text : List Char) : Decidable (Outside text) :=
  decidable_of_iff (openAfter none text = none) (outside_iff text).symm

/-- At this position of a text stands a question mark outside quotes. -/
def IsMark (text : List Char) (i : Nat) : Prop := text[i]? = some '?' ∧ Outside (text.take i)

instance (text : List Char) (i : Nat) : Decidable (IsMark text i) :=
  inferInstanceAs (Decidable (_ ∧ _))

/-- The number of question marks outside quotes before a position. -/
def marksBefore (text : List Char) (i : Nat) : Nat := (List.range i).countP fun j => IsMark text j

/-- What stands for the character at a position when the question marks outside quotes are numbered
from `start + 1` on. -/
def renumbered (start : Nat) (text : List Char) (i : Nat) (c : Char) : List Char :=
  if IsMark text i then '$' :: (toString (start + marksBefore text i + 1)).toList else [c]

section Positions

variable {text : List Char} (rest : List Char)

theorem isMark_append {i : Nat} (h : i < text.length) :
    IsMark (text ++ rest) i ↔ IsMark text i := by
  rw [IsMark, IsMark, List.getElem?_append_left h, List.take_append_of_le_length h.le]

theorem marksBefore_append {i : Nat} (h : i ≤ text.length) :
    marksBefore (text ++ rest) i = marksBefore text i := by
  apply List.countP_congr
  intro j hj
  have hlt : j < text.length := by
    have := List.mem_range.mp hj
    omega
  simp only [decide_eq_true_eq, isMark_append rest hlt]

theorem renumbered_append (start : Nat) {i : Nat} (h : i < text.length) (c : Char) :
    renumbered start (text ++ rest) i c = renumbered start text i c := by
  simp only [renumbered, isMark_append rest h, marksBefore_append rest h.le]

theorem isMark_length (text : List Char) (c : Char) :
    IsMark (text ++ [c]) text.length ↔ ((openAfter none text).isNone && c = '?') = true := by
  have htake : (text ++ [c]).take text.length = text := List.take_left
  rw [IsMark, htake, List.getElem?_concat_length, outside_iff]
  simp [and_comm]

/-- The scanner counts the question marks outside quotes. -/
theorem count_flags (text : List Char) :
    (flags none text).count true = marksBefore text text.length := by
  induction text using List.reverseRecOn with
  | nil => rfl
  | append_singleton text c ih =>
    have hbefore := marksBefore_append [c] (Nat.le_refl text.length)
    have hlast : (flags (openAfter none text) [c]).count true =
        [text.length].countP fun j => IsMark (text ++ [c]) j := by
      have hmark := isMark_length text c
      by_cases h : IsMark (text ++ [c]) text.length
      · simp [flags, h, hmark.mp h]
      · simp [flags, h, Bool.eq_false_iff.mpr (mt hmark.mpr h)]
    have hstep : marksBefore (text ++ [c]) (text.length + 1) =
        marksBefore (text ++ [c]) text.length +
          [text.length].countP fun j => IsMark (text ++ [c]) j := by
      rw [marksBefore, List.range_succ, List.countP_append]
      rfl
    rw [flags_append, List.count_append, ih, hlast, List.length_append, List.length_singleton,
      hstep, hbefore]

/-- Numbering goes through a text position by position. -/
theorem numberFrom_eq_renumbered (start : Nat) (text : List Char) :
    numberFrom none start text = (text.mapIdx (renumbered start text)).flatten := by
  induction text using List.reverseRecOn with
  | nil => rfl
  | append_singleton text c ih =>
    have hbefore : text.mapIdx (renumbered start (text ++ [c])) =
        text.mapIdx (renumbered start text) := by
      apply List.ext_getElem (by simp)
      intro i hi _
      have hlt : i < text.length := by simpa using hi
      simp [renumbered_append [c] start hlt]
    have hlast : numberFrom (openAfter none text) (start + (flags none text).count true) [c] =
        renumbered start (text ++ [c]) text.length c := by
      have hcount := marksBefore_append [c] (Nat.le_refl text.length)
      rw [numberFrom, renumbered, hcount, count_flags]
      by_cases h : IsMark (text ++ [c]) text.length
      · rw [if_pos h, if_pos ((isMark_length text c).mp h), numberFrom, List.append_nil]
      · rw [if_neg h, if_neg (mt (isMark_length text c).mpr h), numberFrom]
    rw [numberFrom_append, ih, hlast, List.mapIdx_concat, hbefore, List.flatten_concat]

end Positions

theorem numberFrom_of_count_eq_zero {open? : Option Char} {text : List Char}
    (h : (flags open? text).count true = 0) (count : Nat) : numberFrom open? count text = text := by
  induction text generalizing open? with
  | nil => rfl
  | cons c text ih =>
    rw [flags, List.count_cons] at h
    have hmark : ¬(open?.isNone && decide (c = '?')) = true := by
      intro hmark
      simp [hmark] at h
    rw [numberFrom, if_neg hmark, ih (by omega)]

/-- What has been numbered has no placeholders left to number. -/
theorem count_flags_numberFrom (open? : Option Char) (count : Nat) (text : List Char) :
    (flags open? (numberFrom open? count text)).count true = 0 := by
  induction text generalizing open? count with
  | nil => rfl
  | cons c text ih =>
    rw [numberFrom]
    by_cases hmark : (open?.isNone && decide (c = '?')) = true
    · obtain ⟨hnone, -⟩ := Bool.and_eq_true_iff.mp hmark
      obtain rfl := Option.isNone_iff_eq_none.mp hnone
      have hdollar : quoteAfter none '$' = none := rfl
      have hdigits := closed_toString (count + 1)
      have hopen : openAfter none (toString (count + 1)).toList = none := hdigits.balanced
      have hzero : (flags none (toString (count + 1)).toList).count true = 0 := hdigits.count_eq
      rw [if_pos hmark, List.cons_append, flags, hdollar, flags_append, hopen, List.count_cons,
        List.count_append, hzero, ih]
      rfl
    · rw [if_neg hmark, flags, List.count_cons, ih]
      simp [hmark]

/-- Numbering replaces the question marks outside quotes by their numbers, in order, and keeps every
other character. A numbered text stays as it is when it is numbered again. And where no quote is
left open, what follows can be numbered on its own from the next number on. -/
theorem number_unquoted :
    (∀ text, number text = numberAfter 0 text) ∧
    (∀ start text, numberAfter start text =
      String.ofList (text.toList.mapIdx (renumbered start text.toList)).flatten) ∧
    (∀ text, number (number text) = number text) ∧
    ∀ s t : String, Outside s.toList →
      number (s ++ t) = number s ++ numberAfter (marksBefore s.toList s.toList.length) t := by
  constructor
  · exact number_eq_numberAfter
  constructor
  · intro start text
    rw [numberAfter, numberFrom_eq_renumbered]
  constructor
  · intro text
    rw [number, number, String.toList_ofList,
      numberFrom_of_count_eq_zero (count_flags_numberFrom none 0 text.toList)]
  · intro s t hs
    have hbalanced : Balanced s := (outside_iff s.toList).mp hs
    have happend := numberAfter_append hbalanced 0 t
    rwa [Nat.zero_add, count, count_flags] at happend

/-- The second question mark stands between quotes, in front of a doubled one, and the last stands
behind a quote that is never closed. -/
theorem number_unquoted_halves :
    Outside "a = ? AND b = '?''' AND ".toList ∧
    marksBefore "a = ? AND b = '?''' AND ".toList 24 = 1 ∧
    number "a = ? AND b = '?''' AND " = "a = $1 AND b = '?''' AND " ∧
    numberAfter 1 "c = ? OR \"?" = "c = $2 OR \"?" ∧
    number ("a = ? AND b = '?''' AND " ++ "c = ? OR \"?") =
      "a = $1 AND b = '?''' AND " ++ "c = $2 OR \"?" := by
  have houtside : Outside "a = ? AND b = '?''' AND ".toList := by decide
  have hmarks : marksBefore "a = ? AND b = '?''' AND ".toList 24 = 1 := by decide
  have hfirst : number "a = ? AND b = '?''' AND " = "a = $1 AND b = '?''' AND " := by decide
  have hsecond : numberAfter 1 "c = ? OR \"?" = "c = $2 OR \"?" := by decide
  have happend := number_unquoted.2.2.2 _ "c = ? OR \"?" houtside
  refine ⟨houtside, hmarks, hfirst, hsecond, ?_⟩
  rw [happend, hfirst]
  exact congrArg _ ((congrArg (numberAfter · _) hmarks).trans hsecond)

end RelMap.Placeholder
