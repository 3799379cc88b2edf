import Mathlib.Data.Nat.Digits.Defs
import RelMap.Dialect.Basic

/-! Placeholders outside quotes. Texts whose quotes are all closed can be put one after the other
without hiding or revealing the placeholders of any of them. -/
namespace RelMap

namespace Placeholder

/-- Which characters of a text are placeholders: the question marks outside quotes. -/
def flags (open? : Option Char) : List Char → List Bool
  | [] => []
  | c :: rest => (open?.isNone && c = '?') :: flags (quoteAfter open? c) rest

/-- The quote that is open after a text, given the one open before it. -/
def openAfter (open? : Option Char) (text : List Char) : Option Char := text.foldl quoteAfter open?

theorem openAfter_append (open? : Option Char) (a b : List Char) :
    openAfter open? (a ++ b) = openAfter (openAfter open? a) b :=
  List.foldl_append

theorem flags_append (open? : Option Char) (a b : List Char) :
    flags open? (a ++ b) = flags open? a ++ flags (openAfter open? a) b := by
  induction a generalizing open? with
  | nil => rfl
  | cons c a ih => exact congrArg _ (ih (quoteAfter open? c))

theorem length_flags (open? : Option Char) (text : List Char) :
    (flags open? text).length = text.length := by
  induction text generalizing open? with
  | nil => rfl
  | cons c text ih => exact congrArg (· + 1) (ih (quoteAfter open? c))

/-- The number of placeholders of a text. -/
def count (text : String) : Nat := (flags none text.toList).count true

/-- All quotes of a text are closed. -/
def Balanced (text : String) : Prop := openAfter none text.toList = none

/-- All quotes of a text are closed, and it has no placeholder. -/
structure Closed (text : String) : Prop where
  balanced : Balanced text
  count_eq : count text = 0

instance (text : String) : Decidable (Balanced text) :=
  inferInstanceAs (Decidable (openAfter none text.toList = none))

instance (text : String) : Decidable (Closed text) :=
  decidable_of_iff (Balanced text ∧ count text = 0) ⟨fun h => ⟨h.1, h.2⟩, fun h => ⟨h.1, h.2⟩⟩

theorem Closed.append {a b : String} (ha : Closed a) (hb : Closed b) : Closed (a ++ b) := by
  constructor
  · rw [Balanced, String.toList_append, openAfter_append, ha.balanced, hb.balanced]
  · have hcount : count (a ++ b) = count a + count b := by
      rw [count, String.toList_append, flags_append, ha.balanced, List.count_append]
      rfl
    rw [hcount, ha.count_eq, hb.count_eq]

theorem Closed.joinWith {separator : String} {parts : List String}
    (hseparator : Closed separator) (hparts : ∀ part ∈ parts, Closed part) :
    Closed (Text.joinWith separator parts) := by
  induction parts with
  | nil => exact show Closed "" by decide
  | cons part rest ih =>
    have hpart : Closed part := hparts part List.mem_cons_self
    have hrest : Closed (Text.joinWith separator rest) :=
      ih fun other hother => hparts other (List.mem_cons_of_mem part hother)
    cases rest with
    | nil => exact hpart
    | cons next more => exact (hpart.append hseparator).append hrest

theorem Closed.joinWith_map {α : Type} {separator : String} (hseparator : Closed separator)
    {f : α → String} {l : List α} (hf : ∀ a ∈ l, Closed (f a)) :
    Closed (Text.joinWith separator (l.map f)) := by
  refine .joinWith hseparator fun part hpart => ?_
  obtain ⟨a, ha, rfl⟩ := List.mem_map.mp hpart
  exact hf a ha

/-- A text without quotes and question marks is closed. -/
theorem closed_of_forall {text : String} (h : ∀ c ∈ text.toList, isQuote c = false ∧ c ≠ '?') :
    Closed text := by
  have haux : ∀ chars : List Char, (∀ c ∈ chars, isQuote c = false ∧ c ≠ '?') →
      openAfter none chars = none ∧ (flags none chars).count true = 0 := by
    intro chars hchars
    induction chars with
    | nil => exact ⟨rfl, rfl⟩
    | cons c rest ih =>
      obtain ⟨hquote, hmark⟩ := hchars c List.mem_cons_self
      have hstep : quoteAfter none c = none := by simp [quoteAfter, hquote]
      obtain ⟨hopen, hcount⟩ := ih fun d hd => hchars d (List.mem_cons_of_mem c hd)
      constructor
      · rw [openAfter, List.foldl_cons, hstep]
        exact hopen
      · rw [flags, hstep, List.count_cons, hcount]
        simp [hmark]
  obtain ⟨hopen, hcount⟩ := haux text.toList h
  exact ⟨hopen, hcount⟩

theorem closed_toString (n : Nat) : Closed (toString n) := by
  refine closed_of_forall fun c hc => ?_
  rw [Nat.toString_eq_ofList_toDigits, String.toList_ofList] at hc
  have hdigit : c.isDigit = true := Nat.isDigit_of_mem_toDigits (by omega) (by omega) hc
  constructor
  · rw [Bool.eq_false_iff]
    intro hquote
    simp only [isQuote, Bool.or_eq_true, decide_eq_true_eq] at hquote
    rcases hquote with (rfl | rfl) | rfl <;> simp [Char.isDigit] at hdigit
  · rintro rfl
    simp [Char.isDigit] at hdigit

end Placeholder

namespace Dialect

open Placeholder

variable (d : Dialect)

/-- A quote inside an identifier closes the quotes around it, and its double opens them again. -/
private theorem escaped_stays_quoted {q : Char} (hq : isQuote q = true) (hmark : q ≠ '?')
    (identifier : List Char) :
    openAfter (some q) (identifier.flatMap fun c => if c = q then [q, q] else [c]) = some q ∧
      (flags (some q) (identifier.flatMap fun c => if c = q then [q, q] else [c])).count true =
        0 := by
  induction identifier with
  | nil => exact ⟨rfl, rfl⟩
  | cons c rest ih =>
    rw [List.flatMap_cons, openAfter_append, flags_append, List.count_append]
    by_cases hc : c = q
    · have hopen : openAfter (some q) [q, q] = some q := by simp [openAfter, quoteAfter, hq]
      have hflags : flags (some q) [q, q] = [false, false] := by simp [flags, quoteAfter, hmark]
      rw [if_pos hc, hopen, hflags, ih.2]
      exact ⟨ih.1, rfl⟩
    · have hopen : openAfter (some q) [c] = some q := by simp [openAfter, quoteAfter, hc]
      have hflags : flags (some q) [c] = [false] := by simp [flags]
      rw [if_neg hc, hopen, hflags, ih.2]
      exact ⟨ih.1, rfl⟩

theorem closed_quote (identifier : String) : Closed (d.quote identifier) := by
  have hquote : isQuote d.quoteChar = true := by cases d <;> rfl
  have hmark : d.quoteChar ≠ '?' := by cases d <;> decide
  unfold quote
  dsimp only
  generalize d.quoteChar = q at hquote hmark
  split_ifs with hstar
  · rw [hstar]
    decide
  obtain ⟨hopen, hcount⟩ := escaped_stays_quoted hquote hmark identifier.toList
  have hfirst : quoteAfter none q = some q := by simp [quoteAfter, hquote]
  have hhead : openAfter none
      (q :: identifier.toList.flatMap fun c => if c = q then [q, q] else [c]) = some q := by
    rw [openAfter, List.foldl_cons, hfirst]
    exact hopen
  constructor
  · rw [Placeholder.Balanced, String.toList_ofList, openAfter_append, hhead]
    simp [openAfter, quoteAfter]
  · rw [count, String.toList_ofList, List.cons_append, flags, hfirst, flags_append, hopen,
      List.count_cons, List.count_append, hcount]
    simp [flags, hmark]

theorem closed_orderTerm {expr : String} (hexpr : Closed expr) (direction : Direction)
    (nulls : Option NullsPlace) : Closed (d.orderTerm expr direction nulls) := by
  have hdirection : Closed direction.sql := by cases direction <;> decide
  have hsorted : Closed (expr ++ " " ++ direction.sql) :=
    (hexpr.append (by decide)).append hdirection
  unfold orderTerm
  dsimp only
  split
  · split
    · exact hsorted.append (by decide)
    · exact hsorted.append (by decide)
  · split
    · exact (hexpr.append (by decide)).append hsorted
    · exact (hexpr.append (by decide)).append hsorted
    · exact hsorted

theorem closed_paging (limit offset : Option Nat) : Closed (d.paging limit offset) := by
  unfold paging
  split
  · apply_rules [Closed.append, closed_toString] <;> decide
  · exact Closed.append (a := "LIMIT ") (by decide) (closed_toString _)
  · refine .append (.append ?_ (by decide)) (closed_toString _)
    split_ifs
    · apply_rules [Closed.append, closed_toString] <;> decide
    · decide
  · decide

end Dialect
end RelMap
