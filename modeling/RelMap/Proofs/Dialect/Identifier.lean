import RelMap.Proofs.Dialect.Finished

/-! Identifiers between quotes. Whatever a name is made of, its quotes close where it ends: it is
read back from there, and the placeholders around it are numbered as if it were not there. -/
namespace RelMap

namespace Placeholder

/-- A text with its placeholders numbered, behind `count` others. -/
def numberAfter (count : Nat) (text : String) : String :=
  String.ofList (numberFrom none count text.toList)

theorem number_eq_numberAfter (text : String) : number text = numberAfter 0 text := rfl

/-- What follows a text is numbered from the placeholders of this text on, in the quote that is
left open by it. -/
theorem numberFrom_append (open? : Option Char) (count : Nat) (a b : List Char) :
    numberFrom open? count (a ++ b) = numberFrom open? count a ++
      numberFrom (openAfter open? a) (count + (flags open? a).count true) b := by
  induction a generalizing open? count with
  | nil => rfl
  | cons c a ih =>
    rw [List.cons_append, numberFrom, numberFrom, flags, List.count_cons]
    have hopen : openAfter open? (c :: a) = openAfter (quoteAfter open? c) a := rfl
    cases hmark : open?.isNone && decide (c = '?') with
    | false =>
      rw [if_neg Bool.false_ne_true, if_neg Bool.false_ne_true, ih, hopen]
      rfl
    | true =>
      obtain ⟨hnone, hc⟩ := Bool.and_eq_true_iff.mp hmark
      obtain rfl := Option.isNone_iff_eq_none.mp hnone
      obtain rfl := of_decide_eq_true hc
      have hstill : quoteAfter none '?' = none := rfl
      have hcount : count + 1 + (flags none a).count true =
          count + ((flags none a).count true + 1) := by omega
      rw [if_pos rfl, if_pos rfl, ih, hopen, hstill, hcount, List.append_assoc]
      rfl

theorem numberAfter_append {a : String} (h : Balanced a) (k : Nat) (b : String) :
    numberAfter k (a ++ b) = numberAfter k a ++ numberAfter (k + count a) b := by
  have hopen : openAfter none a.toList = none := h
  rw [numberAfter, String.toList_append, numberFrom_append, hopen, String.ofList_append]
  rfl

theorem numberAfter_of_closed {text : String} (h : Closed text) (k : Nat) :
    numberAfter k text = text :=
  Dialect.finalizeFrom_of_closed (d := .postgresql) h k

/-- A text without placeholders can be put between two others. -/
theorem number_between {before between : String} (hbefore : Balanced before)
    (hbetween : Closed between) (after : String) :
    number (before ++ between ++ after) =
      number before ++ between ++ numberAfter (count before) after := by
  rw [number_eq_numberAfter, String.append_assoc, numberAfter_append hbefore,
    numberAfter_append hbetween.balanced, numberAfter_of_closed hbetween, hbetween.count_eq,
    Nat.zero_add, Nat.add_zero, number_eq_numberAfter, String.append_assoc]

end Placeholder

namespace Dialect

open Placeholder (Balanced number numberAfter count)

/-- A name as it stands between quotes. -/
def doubled (q : Char) (name : List Char) : List Char :=
  name.flatMap fun c => if c = q then [q, q] else [c]

/-- The name up to the quote that closes it, and what follows. A doubled quote stands for
itself. -/
def nameAndRest? (q : Char) : List Char → Option (List Char × List Char)
  | [] => none
  | c :: rest =>
    if c ≠ q then (nameAndRest? q rest).map fun read => (c :: read.1, read.2)
    else match rest with
      | [] => some ([], [])
      | next :: more =>
        if next = q then (nameAndRest? q more).map fun read => (q :: read.1, read.2)
        else some ([], rest)

/-- The name that a text begins with between quotes, and what follows it. -/
def identifier? (d : Dialect) (text : String) : Option (String × String) :=
  match text.toList with
  | [] => none
  | c :: rest =>
    if c = d.quoteChar then
      (nameAndRest? d.quoteChar rest).map fun read => (String.ofList read.1, String.ofList read.2)
    else none

variable {d : Dialect} {q : Char} {name : String}

theorem nameAndRest?_cons {c : Char} (h : c ≠ q) (rest : List Char) :
    nameAndRest? q (c :: rest) = (nameAndRest? q rest).map fun read => (c :: read.1, read.2) := by
  cases rest <;> simp [nameAndRest?, h]

theorem nameAndRest?_pair (rest : List Char) :
    nameAndRest? q (q :: q :: rest) =
      (nameAndRest? q rest).map fun read => (q :: read.1, read.2) := by
  simp [nameAndRest?]

theorem nameAndRest?_close {rest : List Char} (h : rest.head? ≠ some q) :
    nameAndRest? q (q :: rest) = some ([], rest) := by
  cases rest with
  | nil => simp [nameAndRest?]
  | cons next more =>
    have hnext : next ≠ q := by simpa using h
    simp [nameAndRest?, hnext]

/-- No quote inside the name is taken for the one that closes it. -/
theorem nameAndRest?_doubled (name : List Char) {rest : List Char} (h : rest.head? ≠ some q) :
    nameAndRest? q (doubled q name ++ q :: rest) = some (name, rest) := by
  induction name with
  | nil => exact nameAndRest?_close h
  | cons c name ih =>
    have hcons : doubled q (c :: name) = (if c = q then [q, q] else [c]) ++ doubled q name := rfl
    rw [hcons, List.append_assoc]
    by_cases hc : c = q
    · rw [if_pos hc, List.cons_append, List.cons_append, List.nil_append, nameAndRest?_pair, ih,
        hc]
      rfl
    · rw [if_neg hc, List.cons_append, List.nil_append, nameAndRest?_cons hc, ih]
      rfl

theorem toList_quote (h : name ≠ "*") :
    (d.quote name).toList = d.quoteChar :: (doubled d.quoteChar name.toList ++ [d.quoteChar]) := by
  rw [quote, if_neg h]
  exact String.toList_ofList

/-- A quoted name ends where its quotes close, unless another quote follows. -/
theorem identifier?_quote_append (h : name ≠ "*") {rest : String}
    (hrest : rest.toList.head? ≠ some d.quoteChar) :
    d.identifier? (d.quote name ++ rest) = some (name, rest) := by
  have htext : (d.quote name ++ rest).toList =
      d.quoteChar :: (doubled d.quoteChar name.toList ++ d.quoteChar :: rest.toList) := by
    rw [String.toList_append, toList_quote h]
    simp
  rw [identifier?, htext]
  dsimp only
  rw [if_pos rfl, nameAndRest?_doubled name.toList hrest, Option.map_some, String.ofList_toList,
    String.ofList_toList]

theorem identifier?_quote (h : name ≠ "*") : d.identifier? (d.quote name) = some (name, "") := by
  have hnothing : ("" : String).toList.head? ≠ some d.quoteChar := by simp
  have hwhole := identifier?_quote_append h hnothing
  rwa [String.append_empty] at hwhole

/-- The star of all columns is not between quotes. -/
theorem identifier?_star (d : Dialect) : d.identifier? (d.quote "*") = none := by
  cases d <;> rfl

theorem quote_injective (d : Dialect) : Function.Injective d.quote := by
  intro a b h
  have hread := congrArg d.identifier? h
  by_cases ha : a = "*"
  · by_cases hb : b = "*"
    · rw [ha, hb]
    · rw [ha, identifier?_star, identifier?_quote hb] at hread
      cases hread
  · by_cases hb : b = "*"
    · rw [hb, identifier?_star, identifier?_quote ha] at hread
      cases hread
    · rw [identifier?_quote ha, identifier?_quote hb] at hread
      exact congrArg Prod.fst (Option.some.inj hread)

/-- No name breaks out of its quotes. It is read back from between them, with nothing left, also
where more of a statement follows; names are told apart by their quoted texts; and between any two
texts, of which the first leaves no quote open, it stays as it is and their placeholders are
numbered as without it. -/
theorem quote_sealed (d : Dialect) :
    Function.Injective d.quote ∧ ∀ name, name ≠ "*" →
      d.identifier? (d.quote name) = some (name, "") ∧
      (∀ rest : String, rest.toList.head? ≠ some d.quoteChar →
        d.identifier? (d.quote name ++ rest) = some (name, rest)) ∧
      ∀ before after, Balanced before →
        number (before ++ d.quote name ++ after) =
          number before ++ d.quote name ++ numberAfter (count before) after ∧
        number (before ++ after) = number before ++ numberAfter (count before) after := by
  refine ⟨quote_injective d, fun name hname => ⟨identifier?_quote hname, ?_, ?_⟩⟩
  · intro rest hrest
    exact identifier?_quote_append hname hrest
  · intro before after hbefore
    constructor
    · exact Placeholder.number_between hbefore (closed_quote d name) after
    · have happend := Placeholder.numberAfter_append hbefore 0 after
      rwa [Nat.zero_add] at happend

/-- A name made of quotes of three kinds, a question mark and a number. -/
def oddName : String := "a\"\"b\x60?'$1"

theorem quote_sealed_oddName :
    oddName ≠ "*" ∧
    postgresql.identifier? (postgresql.quote oddName ++ " = ?") = some (oddName, " = ?") ∧
    Balanced "kind = '?' AND id = ? AND " ∧
    number ("kind = '?' AND id = ? AND " ++ postgresql.quote oddName ++ " = ?") =
      "kind = '?' AND id = $1 AND \"a\"\"\"\"b\x60?'$1\" = $2" := by
  have hname : oddName ≠ "*" := by decide
  have hbefore : Balanced "kind = '?' AND id = ? AND " := by decide
  obtain ⟨-, hread, hnumber⟩ := (quote_sealed postgresql).2 oddName hname
  refine ⟨hname, hread " = ?" (by decide), hbefore, ?_⟩
  rw [(hnumber "kind = '?' AND id = ? AND " " = ?" hbefore).1]
  decide

end Dialect
end RelMap
