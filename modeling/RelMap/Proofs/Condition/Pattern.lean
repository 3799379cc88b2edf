import Mathlib.Data.List.Infix
import RelMap.Proofs.Condition.Basic
import RelMap.Proofs.Text.Regex

/-! Which texts a pattern covers: those that split along its characters. The regular expression that
a pattern is translated to accepts just these, however the characters between wildcards are put
together to literal parts. -/
namespace RelMap
namespace Pattern

open Regex (Engine Part)

/-- The pieces of text that a character of a pattern stands for. -/
def Stands (c : Char) (piece : List Char) : Prop :=
  if c = '%' then True else if c = '_' then piece.length = 1 else piece = [c]

/-- The whole text splits along the pattern. -/
def Covers (pattern text : String) : Prop := Splits Stands pattern.toList text.toList

/-- A text without wildcards. -/
def Plain (value : String) : Prop := '%' ∉ value.toList ∧ '_' ∉ value.toList

instance (value : String) : Decidable (Plain value) := inferInstanceAs (Decidable (_ ∧ _))

theorem stands_percent (piece : List Char) : Stands '%' piece := trivial

theorem stands_self {c : Char} (hpercent : c ≠ '%') (hunderscore : c ≠ '_') (piece : List Char) :
    Stands c piece ↔ piece = [c] := by
  rw [Stands, if_neg hpercent, if_neg hunderscore]

section Translation

variable {pattern literal text : List Char} {parts : List Part}

theorem splits_flush :
    Splits Part.Matches (flush literal ++ parts) text ↔
      ∃ rest, Splits Part.Matches parts rest ∧ literal ++ rest = text := by
  cases literal with
  | nil => simp [flush]
  | cons c literal =>
    have hflush : flush (c :: literal) = [.literal (String.ofList (c :: literal))] := rfl
    rw [hflush, List.singleton_append, splits_cons]
    simp only [Part.Matches, String.toList_ofList]
    constructor
    · rintro ⟨piece, rest, rfl, hrest, rfl⟩
      exact ⟨rest, hrest, rfl⟩
    · rintro ⟨rest, hrest, rfl⟩
      exact ⟨c :: literal, rest, rfl, hrest, rfl⟩

/-- What has been collected stands at the front of the text, and the rest of the pattern covers
what follows. The induction is on this rest, for all that may have been collected before it. -/
theorem splits_partsAfter :
    Splits Part.Matches (partsAfter literal pattern) text ↔
      ∃ rest, Splits Stands pattern rest ∧ literal ++ rest = text := by
  induction pattern generalizing literal text with
  | nil =>
    have hnil : partsAfter literal [] = flush literal ++ [] := (List.append_nil _).symm
    rw [hnil, splits_flush]
    simp only [splits_nil]
  | cons c pattern ih =>
    have hnothing : ∀ rest, Splits Part.Matches (partsAfter [] pattern) rest ↔
        Splits Stands pattern rest := by
      intro rest
      rw [ih]
      simp
    have hwildcard : ∀ part : Part, (∀ piece, part.Matches piece ↔ Stands c piece) →
        (Splits Part.Matches (flush literal ++ part :: partsAfter [] pattern) text ↔
          ∃ rest, Splits Stands (c :: pattern) rest ∧ literal ++ rest = text) := by
      intro part hpart
      rw [splits_flush]
      simp only [splits_cons, hpart, hnothing]
    rw [partsAfter]
    by_cases hpercent : c = '%'
    · rw [if_pos hpercent]
      apply hwildcard
      intro piece
      rw [hpercent]
      exact Iff.rfl
    · by_cases hunderscore : c = '_'
      · rw [if_neg hpercent, if_pos hunderscore]
        apply hwildcard
        intro piece
        rw [hunderscore]
        exact Iff.rfl
      · rw [if_neg hpercent, if_neg hunderscore, ih]
        simp only [splits_cons, stands_self hpercent hunderscore]
        constructor
        · rintro ⟨rest, hrest, rfl⟩
          exact ⟨c :: rest, ⟨[c], rest, rfl, hrest, rfl⟩, by simp⟩
        · rintro ⟨_, ⟨_, rest, rfl, hrest, rfl⟩, rfl⟩
          exact ⟨rest, hrest, by simp⟩

end Translation

variable {pattern text : String}

/-- The library's own parts tell which texts a pattern covers. -/
instance : Decidable (Covers pattern text) :=
  decidable_of_iff (Regex.accepts (partsAfter [] pattern.toList) text = true) <| by
    rw [Regex.accepts_iff, splits_partsAfter]
    simp [Covers]

section Engines

variable [engine : Engine]

/-- With any engine that follows the rules, a pattern can be compiled, and it accepts the texts that
it covers. -/
theorem compile_eq_ok (h : engine.Lawful) (pattern : String) :
    ∃ accepts, compile pattern = .ok accepts ∧
      ∀ text, accepts text = true ↔ Covers pattern text := by
  obtain ⟨accepts, hcompile, haccepts⟩ := h.compiles (partsAfter [] pattern.toList)
  refine ⟨accepts, ?_, fun text => ?_⟩
  · rw [compile, expression, hcompile]
    rfl
  · rw [haccepts, splits_partsAfter]
    simp [Covers]

theorem isMatch_of_compile {accepts : String → Bool} (h : compile pattern = .ok accepts)
    (text : String) : isMatch pattern text = .ok (accepts text) := by
  rw [isMatch, h]
  rfl

theorem isMatch_eq_decide (h : engine.Lawful) (pattern text : String) :
    isMatch pattern text = .ok (decide (Covers pattern text)) := by
  obtain ⟨accepts, hcompile, haccepts⟩ := compile_eq_ok h pattern
  rw [isMatch_of_compile hcompile]
  exact congrArg Except.ok (Bool.eq_iff_iff.mpr ((haccepts text).trans decide_eq_true_iff.symm))

end Engines

section Plain

variable {value text : List Char}

theorem splits_percent : Splits Stands ['%'] text := splits_singleton.mpr (stands_percent text)

variable (hpercent : '%' ∉ value) (hunderscore : '_' ∉ value)
include hpercent hunderscore

/-- Without wildcards a pattern covers itself only. -/
theorem splits_plain : Splits Stands value text ↔ text = value := by
  induction value generalizing text with
  | nil => exact splits_nil
  | cons c value ih =>
    have hc : ∀ piece, Stands c piece ↔ piece = [c] :=
      stands_self (List.ne_of_not_mem_cons hpercent).symm (List.ne_of_not_mem_cons hunderscore).symm
    have hrest : ∀ rest, Splits Stands value rest ↔ rest = value := fun rest =>
      ih (List.not_mem_of_not_mem_cons hpercent) (List.not_mem_of_not_mem_cons hunderscore)
    rw [splits_cons]
    simp only [hc, hrest]
    constructor
    · rintro ⟨piece, rest, rfl, rfl, rfl⟩
      rfl
    · rintro rfl
      exact ⟨[c], value, rfl, rfl, rfl⟩

theorem splits_startsWith : Splits Stands (value ++ ['%']) text ↔ value <+: text := by
  rw [splits_append]
  simp only [splits_plain hpercent hunderscore]
  constructor
  · rintro ⟨read, rest, rfl, -, htext⟩
    exact ⟨rest, htext⟩
  · rintro ⟨rest, htext⟩
    exact ⟨value, rest, rfl, splits_percent, htext⟩

theorem splits_endsWith : Splits Stands ('%' :: value) text ↔ value <:+ text := by
  rw [splits_cons]
  simp only [splits_plain hpercent hunderscore]
  constructor
  · rintro ⟨piece, rest, -, rfl, htext⟩
    exact ⟨piece, htext⟩
  · rintro ⟨piece, htext⟩
    exact ⟨piece, value, stands_percent piece, rfl, htext⟩

theorem splits_contains : Splits Stands ('%' :: (value ++ ['%'])) text ↔ value <:+: text := by
  rw [splits_cons]
  simp only [splits_startsWith hpercent hunderscore]
  constructor
  · rintro ⟨piece, rest, -, ⟨more, rfl⟩, htext⟩
    rw [← List.append_assoc] at htext
    exact ⟨piece, more, htext⟩
  · rintro ⟨piece, more, htext⟩
    rw [List.append_assoc] at htext
    exact ⟨piece, value ++ more, stands_percent piece, List.prefix_append value more, htext⟩

end Plain

end Pattern

/-- Whether the text of a value has a property. `NULL` has no text. -/
def Value.textHas (v : Value) (p : List Char → Prop) [DecidablePred p] : Bool :=
  !v.isNull && decide (p v.display.toList)

namespace Condition

open Pattern (Covers Plain Stands)

section Engines

variable [engine : Regex.Engine] {f : FieldRef} {r : Record} {value : String}

theorem evaluate_like_of_compile {pattern : String} {accepts : String → Bool}
    (h : Pattern.compile pattern = .ok accepts) (f : FieldRef) (r : Record) :
    (f.satisfies (.like pattern)).evaluate r =
      .ok (!(r.get f.name).isNull && accepts (r.get f.name).display) := by
  rw [FieldRef.satisfies, evaluate, Lookup.holds_like, Value.isLike, Pattern.isMatch_of_compile h]
  cases (r.get f.name).isNull <;> rfl

variable (h : engine.Lawful)
include h

/-- What `LIKE` asks of the text of a field, in other words. -/
theorem evaluate_like_eq_textHas {pattern : String} {p : List Char → Prop} [DecidablePred p]
    (hp : ∀ text, Splits Stands pattern.toList text ↔ p text) :
    (f.satisfies (.like pattern)).evaluate r = .ok ((r.get f.name).textHas p) := by
  obtain ⟨accepts, hcompile, haccepts⟩ := Pattern.compile_eq_ok h pattern
  have htext : accepts (r.get f.name).display = decide (p (r.get f.name).display.toList) :=
    Bool.eq_iff_iff.mpr (((haccepts _).trans (hp _)).trans decide_eq_true_iff.symm)
  rw [evaluate_like_of_compile hcompile, htext]
  rfl

theorem evaluate_contains (hvalue : Plain value) :
    (f.contains value).evaluate r = .ok ((r.get f.name).textHas (value.toList <:+: ·)) := by
  have hpattern : ("%" ++ value ++ "%").toList = '%' :: (value.toList ++ ['%']) := by simp
  apply evaluate_like_eq_textHas h
  intro text
  rw [hpattern]
  exact Pattern.splits_contains hvalue.1 hvalue.2

theorem evaluate_startsWith (hvalue : Plain value) :
    (f.startsWith value).evaluate r = .ok ((r.get f.name).textHas (value.toList <+: ·)) := by
  have hpattern : (value ++ "%").toList = value.toList ++ ['%'] := by simp
  apply evaluate_like_eq_textHas h
  intro text
  rw [hpattern]
  exact Pattern.splits_startsWith hvalue.1 hvalue.2

theorem evaluate_endsWith (hvalue : Plain value) :
    (f.endsWith value).evaluate r = .ok ((r.get f.name).textHas (value.toList <:+ ·)) := by
  have hpattern : ("%" ++ value).toList = '%' :: value.toList := by simp
  apply evaluate_like_eq_textHas h
  intro text
  rw [hpattern]
  exact Pattern.splits_endsWith hvalue.1 hvalue.2

end Engines

/-- `LIKE` with whatever engine follows the rules. Each pattern can be compiled and accepts the
texts that split along it, and a field is like the pattern if its text is one of them. For a value
without wildcards these are the texts with this value inside, at the front, or at the end. -/
theorem evaluate_like [engine : Regex.Engine] (h : engine.Lawful) (f : FieldRef) (r : Record) :
    (∀ pattern, ∃ accepts, Pattern.compile pattern = .ok accepts ∧
      (∀ text, accepts text = true ↔ Covers pattern text) ∧
      (f.satisfies (.like pattern)).evaluate r =
        .ok (!(r.get f.name).isNull && accepts (r.get f.name).display)) ∧
    ∀ value, Plain value →
      (f.contains value).evaluate r = .ok ((r.get f.name).textHas (value.toList <:+: ·)) ∧
      (f.startsWith value).evaluate r = .ok ((r.get f.name).textHas (value.toList <+: ·)) ∧
      (f.endsWith value).evaluate r = .ok ((r.get f.name).textHas (value.toList <:+ ·)) := by
  constructor
  · intro pattern
    obtain ⟨accepts, hcompile, haccepts⟩ := Pattern.compile_eq_ok h pattern
    exact ⟨accepts, hcompile, haccepts, evaluate_like_of_compile hcompile f r⟩
  · intro value hvalue
    exact ⟨evaluate_contains h hvalue, evaluate_startsWith h hvalue, evaluate_endsWith h hvalue⟩

/-- Neither the dot nor the brackets of these patterns have a meaning of their own, and the percent
sign stands for the end of a line as well. -/
theorem evaluate_like_brackets :
    Regex.engine.Lawful ∧
    (∃ accepts, Pattern.compile "v1.(%_" = .ok accepts ∧
      accepts "v1.(\n)" = true ∧ accepts "v12(\n)" = false ∧ accepts "v1.(" = false) ∧
    Plain "1.(" ∧
    (FieldRef.contains ⟨"tag", none⟩ "1.(").evaluate (.ofFields [("tag", .text "v1.(\n)")]) =
      .ok true ∧
    (FieldRef.startsWith ⟨"tag", none⟩ "1.(").evaluate (.ofFields [("tag", .text "v1.(\n)")]) =
      .ok false := by
  obtain ⟨hlike, hplain⟩ := evaluate_like Regex.engine_lawful ⟨"tag", none⟩
    (.ofFields [("tag", .text "v1.(\n)")])
  obtain ⟨accepts, hcompile, haccepts, -⟩ := hlike "v1.(%_"
  have hnot : ∀ text, ¬ Covers "v1.(%_" text → accepts text = false := by
    intro text htext
    exact Bool.eq_false_iff.mpr fun h => htext ((haccepts text).mp h)
  have hvalue : Plain "1.(" := by decide
  obtain ⟨hcontains, hstart, -⟩ := hplain "1.(" hvalue
  refine ⟨Regex.engine_lawful, ⟨accepts, hcompile, ?_, ?_, ?_⟩, hvalue, ?_, ?_⟩
  · exact (haccepts _).mpr (by decide)
  · exact hnot _ (by decide)
  · exact hnot _ (by decide)
  · rw [hcontains]
    exact congrArg Except.ok (by decide)
  · rw [hstart]
    exact congrArg Except.ok (by decide)

end Condition
end RelMap
