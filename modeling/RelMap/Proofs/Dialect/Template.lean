import RelMap.Proofs.Dialect.Placeholder
import RelMap.Proofs.Outcome
import RelMap.Sql

/-! Templates: texts in which every value still stands in its place. The text and the arguments
of a statement are two readings of one template, and a sound template is one whose values are
found again at the placeholders of its text. -/
namespace RelMap

open Placeholder (flags openAfter Closed)

/-- A character, or the place of a value. -/
inductive Mark where
  | char (c : Char)
  | slot (value : Value)

namespace Mark

def toChar : Mark → Char
  | .char c => c
  | .slot _ => '?'

def isSlot : Mark → Bool
  | .char _ => false
  | .slot _ => true

def value? : Mark → Option Value
  | .char _ => none
  | .slot value => some value

end Mark

abbrev Template := List Mark

namespace Template

def ofText (text : String) : Template := text.toList.map .char

/-- A text with the place of a value behind it. -/
def binding (text : String) (value : Value) : Template := ofText text ++ [.slot value]

def text (t : Template) : String := String.ofList (t.map Mark.toChar)

/-- The values in the order of their places. -/
def values (t : Template) : List Value := t.filterMap Mark.value?

def sql (t : Template) : Sql := ⟨t.text, t.values⟩

/-- The text in which the places that follow `count` others are numbered. -/
def numbered (count : Nat) : Template → List Char
  | [] => []
  | .char c :: rest => c :: numbered count rest
  | .slot _ :: rest => '$' :: (toString (count + 1)).toList ++ numbered (count + 1) rest

/-- The placeholders of the text are the places of the values, and no quote is left open. -/
structure Sound (t : Template) : Prop where
  flags_eq : flags none (t.map Mark.toChar) = t.map Mark.isSlot
  openAfter_eq : openAfter none (t.map Mark.toChar) = none

/-- The SQL is read from a sound template of these values. -/
structure Spells (t : Template) (sql : Sql) (values : List Value) : Prop where
  sql_eq : t.sql = sql
  sound : t.Sound
  values_eq : t.values = values

theorem toList_text (t : Template) : t.text.toList = t.map Mark.toChar := String.toList_ofList

@[simp] theorem text_append (t u : Template) : (t ++ u).text = t.text ++ u.text := by
  rw [text, List.map_append, String.ofList_append]
  rfl

@[simp] theorem values_append (t u : Template) : (t ++ u).values = t.values ++ u.values :=
  List.filterMap_append

@[simp] theorem text_ofText (text : String) : (ofText text).text = text := by
  simp [Template.text, ofText, Function.comp_def, Mark.toChar]

@[simp] theorem values_ofText (text : String) : (ofText text).values = [] := by
  simp [values, ofText, Mark.value?]

@[simp] theorem text_binding (text : String) (value : Value) :
    (binding text value).text = text ++ "?" := by
  rw [binding, text_append, text_ofText]
  rfl

@[simp] theorem values_binding (text : String) (value : Value) :
    (binding text value).values = [value] := by
  rw [binding, values_append, values_ofText]
  rfl

theorem text_isEmpty (t : Template) : t.text.isEmpty = List.isEmpty t := by
  cases t <;> simp [text]

theorem Sound.nil : Sound [] := ⟨rfl, rfl⟩

theorem Sound.append {t u : Template} (ht : t.Sound) (hu : u.Sound) : Sound (t ++ u) := by
  constructor
  · rw [List.map_append, List.map_append, Placeholder.flags_append, ht.openAfter_eq, ht.flags_eq,
      hu.flags_eq]
  · rw [List.map_append, Placeholder.openAfter_append, ht.openAfter_eq, hu.openAfter_eq]

theorem Sound.slot (value : Value) : Sound [.slot value] := ⟨rfl, rfl⟩

theorem sound_ofText {text : String} (h : Closed text) : (ofText text).Sound := by
  have hchars : (ofText text).map Mark.toChar = text.toList := by
    simp [ofText, Function.comp_def, Mark.toChar]
  constructor
  · have hslots : (ofText text).map Mark.isSlot = List.replicate text.toList.length false := by
      simp [ofText, Function.comp_def, Mark.isSlot]
    rw [hchars, hslots, List.eq_replicate_iff]
    refine ⟨Placeholder.length_flags _ _, fun flag hflag => ?_⟩
    have hcount := List.count_eq_zero.mp h.count_eq
    cases flag with
    | false => rfl
    | true => exact absurd hflag hcount
  · rw [hchars]
    exact h.balanced

theorem sound_binding {text : String} (h : Closed text) (value : Value) :
    (binding text value).Sound :=
  (sound_ofText h).append (.slot value)

section Numbering

variable {t : Template}

/-- There are as many placeholders as values. -/
theorem Sound.count_eq (h : t.Sound) : Placeholder.count t.text = t.values.length := by
  have hslots : ∀ u : Template, (u.map Mark.isSlot).count true = u.values.length := by
    intro u
    induction u with
    | nil => rfl
    | cons mark u ih =>
      cases mark with
      | char c => simpa [values, Mark.isSlot, Mark.value?, List.filterMap_cons] using ih
      | slot value => simpa [values, Mark.isSlot, Mark.value?, List.filterMap_cons] using ih
  rw [Placeholder.count, toList_text, h.flags_eq, hslots]

/-- What follows a template is numbered from the number of its values on. -/
theorem numberFrom_append {open? : Option Char} (count : Nat) (rest : List Char)
    (h : flags open? (t.map Mark.toChar) = t.map Mark.isSlot) :
    Placeholder.numberFrom open? count (t.map Mark.toChar ++ rest) =
      t.numbered count ++ Placeholder.numberFrom (openAfter open? (t.map Mark.toChar))
        (count + t.values.length) rest := by
  induction t generalizing open? count with
  | nil => rfl
  | cons mark t ih =>
    obtain ⟨hmark, hrest⟩ := List.cons.inj h
    cases mark with
    | char c =>
      rw [List.map_cons, List.cons_append, Placeholder.numberFrom,
        if_neg (Bool.eq_false_iff.mp hmark), numbered]
      exact congrArg _ (ih count hrest)
    | slot value =>
      have hnone : open? = none := by simpa [Mark.toChar, Mark.isSlot] using hmark
      subst hnone
      have hlength : (values (.slot value :: t)).length = 1 + (values t).length :=
        Nat.add_comm (values t).length 1
      have htail := ih (count + 1) hrest
      rw [Nat.add_assoc, ← hlength] at htail
      have hmarked := congrArg (fun tail => '$' :: (toString (count + 1)).toList ++ tail) htail
      exact hmarked.trans (List.append_assoc _ _ _).symm

/-- Numbering the placeholders of a sound template numbers its values, and nothing else of the
text changes. -/
theorem Sound.number_text (h : t.Sound) :
    Placeholder.number t.text = String.ofList (t.numbered 0) := by
  have hnumbered := numberFrom_append 0 [] h.flags_eq
  rw [List.append_nil, h.openAfter_eq, Placeholder.numberFrom, List.append_nil] at hnumbered
  rw [Placeholder.number, toList_text, hnumbered]

end Numbering

/-- A text whose placeholders are the places of values, as long as there are any left. -/
def fill (open? : Option Char) : List Char → List Value → Template
  | [], _ => []
  | c :: rest, [] => .char c :: fill (Placeholder.quoteAfter open? c) rest []
  | c :: rest, value :: values =>
    if open?.isNone && c = '?' then
      .slot value :: fill (Placeholder.quoteAfter open? c) rest values
    else .char c :: fill (Placeholder.quoteAfter open? c) rest (value :: values)

private theorem fill_spec {open? : Option Char} {chars : List Char} {args : List Value}
    (h : (flags open? chars).count true = args.length) :
    (fill open? chars args).map Mark.toChar = chars ∧
      (fill open? chars args).map Mark.isSlot = flags open? chars ∧
      (fill open? chars args).values = args := by
  induction chars generalizing open? args with
  | nil =>
    cases args with
    | nil => exact ⟨rfl, rfl, rfl⟩
    | cons value args => cases h
  | cons c rest ih =>
    rw [flags, List.count_cons] at h
    cases hflag : (open?.isNone && decide (c = '?')) with
    | false =>
      obtain ⟨hchars, hslots, hvalues⟩ := ih (by simpa [hflag] using h)
      have hfill : fill open? (c :: rest) args =
          .char c :: fill (Placeholder.quoteAfter open? c) rest args := by
        cases args <;> simp [fill, hflag]
      rw [hfill, flags, hflag]
      exact ⟨congrArg _ hchars, congrArg _ hslots, hvalues⟩
    | true =>
      have hc : c = '?' := by simp_all
      cases args with
      | nil => simp [hflag] at h
      | cons value args =>
        obtain ⟨hchars, hslots, hvalues⟩ := ih (by simpa [hflag] using h)
        rw [fill, hflag, flags, hflag]
        exact ⟨congrArg₂ _ hc.symm hchars, congrArg _ hslots, congrArg _ hvalues⟩

theorem fill_spells {text : String} {args : List Value} (hbalanced : Placeholder.Balanced text)
    (hcount : Placeholder.count text = args.length) :
    (fill none text.toList args).Spells ⟨text, args⟩ args := by
  obtain ⟨hchars, hslots, hvalues⟩ := fill_spec hcount
  refine ⟨?_, ⟨?_, ?_⟩, hvalues⟩
  · rw [sql, Template.text, hchars, hvalues, String.ofList_toList]
  · rw [hchars, hslots]
  · rw [hchars]
    exact hbalanced

/-- The parts in order, with `separator` between neighbours. -/
def joinWith (separator : String) : List Template → Template
  | [] => []
  | [part] => part
  | part :: rest => part ++ ofText separator ++ joinWith separator rest

theorem text_joinWith (separator : String) (parts : List Template) :
    (joinWith separator parts).text = Text.joinWith separator (parts.map text) := by
  fun_induction joinWith separator parts with
  | case1 => rfl
  | case2 part => rfl
  | case3 part rest hne ih =>
    obtain ⟨next, more, rfl⟩ := List.exists_cons_of_ne_nil hne
    rw [text_append, text_append, text_ofText, ih]
    rfl

theorem values_joinWith (separator : String) (parts : List Template) :
    (joinWith separator parts).values = parts.flatMap values := by
  fun_induction joinWith separator parts with
  | case1 => rfl
  | case2 part => simp
  | case3 part rest hne ih =>
    rw [values_append, values_append, values_ofText, ih, List.append_nil, List.flatMap_cons]

theorem sound_joinWith {separator : String} (hseparator : Closed separator)
    {parts : List Template} (hparts : ∀ part ∈ parts, Sound part) :
    (joinWith separator parts).Sound := by
  fun_induction joinWith separator parts with
  | case1 => exact Sound.nil
  | case2 part => exact hparts part List.mem_cons_self
  | case3 part rest hne ih =>
    have hpart : part.Sound := hparts part List.mem_cons_self
    have hrest : (joinWith separator rest).Sound :=
      ih fun other hother => hparts other (List.mem_cons_of_mem part hother)
    exact (hpart.append (sound_ofText hseparator)).append hrest

def parenthesized (t : Template) : Template := ofText "(" ++ t ++ ofText ")"

theorem text_parenthesized (t : Template) : (parenthesized t).text = Sql.parenthesized t.text := by
  rw [parenthesized, text_append, text_append, text_ofText, text_ofText]
  rfl

theorem values_parenthesized (t : Template) : (parenthesized t).values = t.values := by
  rw [parenthesized, values_append, values_append, values_ofText, values_ofText, List.nil_append,
    List.append_nil]

theorem Sound.parenthesized {t : Template} (h : t.Sound) : (parenthesized t).Sound :=
  ((sound_ofText (by decide)).append h).append (sound_ofText (by decide))

/-- The denial of what is asked; nothing where nothing is asked. -/
def negation (t : Template) : Template :=
  if t.isEmpty then [] else ofText "NOT " ++ parenthesized t

theorem sql_negation (t : Template) : (negation t).sql =
    if t.text.isEmpty then ⟨"", []⟩ else ⟨"NOT " ++ Sql.parenthesized t.text, t.values⟩ := by
  unfold negation
  rw [text_isEmpty]
  split_ifs
  · rfl
  · simp [sql, text_parenthesized, values_parenthesized]

theorem values_negation (t : Template) : (negation t).values = t.values := by
  unfold negation
  split_ifs with hempty
  · rw [List.isEmpty_iff.mp hempty]
  · rw [values_append, values_ofText, values_parenthesized, List.nil_append]

theorem Sound.negation {t : Template} (h : t.Sound) : (negation t).Sound := by
  unfold Template.negation
  split_ifs
  · exact Sound.nil
  · exact (sound_ofText (by decide)).append h.parenthesized

/-- The parts that say something. -/
def nonEmpty (parts : List Template) : List Template := parts.filter fun part => !part.isEmpty

def group (joiner : String) (parts : List Template) : Template :=
  joinWith joiner ((nonEmpty parts).map parenthesized)

def conjunction (parts : List Template) : Template :=
  match nonEmpty parts with
  | [part] => part
  | _ => group " AND " parts

/-- The places of values with commas between them. -/
def listed (values : List Value) : Template := joinWith ", " (values.map fun value => [.slot value])

theorem nonEmpty_map_sql (parts : List Template) :
    Sql.nonEmpty (parts.map sql) = (nonEmpty parts).map sql := by
  rw [Sql.nonEmpty, nonEmpty, List.filter_map]
  congr 2
  funext part
  exact congrArg not (text_isEmpty part)

theorem flatMap_values_nonEmpty (parts : List Template) :
    (nonEmpty parts).flatMap values = parts.flatMap values := by
  induction parts with
  | nil => rfl
  | cons part parts ih =>
    unfold nonEmpty at ih ⊢
    cases part with
    | nil => simpa [values] using ih
    | cons mark part =>
      rw [List.filter_cons_of_pos (by simp), List.flatMap_cons, List.flatMap_cons, ih]

theorem sql_group (joiner : String) (parts : List Template) :
    (group joiner parts).sql = Sql.group joiner (parts.map sql) := by
  unfold Sql.group
  rw [nonEmpty_map_sql]
  simp only [sql, group, text_joinWith, values_joinWith, List.map_map, List.flatMap_map,
    Function.comp_def, text_parenthesized, values_parenthesized]

theorem values_group (joiner : String) (parts : List Template) :
    (group joiner parts).values = parts.flatMap values := by
  rw [group, values_joinWith, List.flatMap_map]
  simp only [values_parenthesized]
  exact flatMap_values_nonEmpty parts

theorem sound_group {joiner : String} (hjoiner : Closed joiner) {parts : List Template}
    (hparts : ∀ part ∈ parts, Sound part) : (group joiner parts).Sound := by
  refine sound_joinWith hjoiner fun part hpart => ?_
  obtain ⟨inner, hinner, rfl⟩ := List.mem_map.mp hpart
  exact (hparts inner (List.mem_of_mem_filter hinner)).parenthesized

theorem sql_conjunction (parts : List Template) :
    (conjunction parts).sql = Sql.conjunction (parts.map sql) := by
  unfold conjunction Sql.conjunction
  rw [nonEmpty_map_sql]
  rcases nonEmpty parts with _ | ⟨part, _ | ⟨next, rest⟩⟩
  · exact sql_group " AND " parts
  · rfl
  · exact sql_group " AND " parts

theorem values_conjunction (parts : List Template) :
    (conjunction parts).values = parts.flatMap values := by
  unfold conjunction
  split
  · next part hpart => rw [← flatMap_values_nonEmpty, hpart, List.flatMap_singleton]
  · exact values_group " AND " parts

theorem sound_conjunction {parts : List Template} (hparts : ∀ part ∈ parts, Sound part) :
    (conjunction parts).Sound := by
  unfold conjunction
  split
  · next part hpart =>
    have hmem : part ∈ nonEmpty parts := hpart ▸ List.mem_cons_self
    exact hparts part (List.mem_of_mem_filter hmem)
  · exact sound_group (by decide) hparts

@[simp] theorem text_listed (values : List Value) :
    (listed values).text = Text.joinWith ", " (Placeholder.listed values.length) := by
  have hslots : values.map (text ∘ fun value => [.slot value]) = values.map fun _ => "?" :=
    List.map_congr_left fun value _ => rfl
  rw [listed, text_joinWith, List.map_map, hslots, List.map_const', Placeholder.listed]

@[simp] theorem values_listed (values : List Value) : (listed values).values = values := by
  rw [listed, values_joinWith, List.flatMap_map]
  exact List.flatMap_singleton' values

theorem sound_listed (values : List Value) : (listed values).Sound := by
  refine sound_joinWith (by decide) fun part hpart => ?_
  obtain ⟨value, -, rfl⟩ := List.mem_map.mp hpart
  exact Sound.slot value

/-- The parts are read from these templates, one from each. -/
structure SpellAll (ts : List Template) (parts : List Sql) (values : List Value) : Prop where
  map_sql : ts.map sql = parts
  sound : ∀ t ∈ ts, Sound t
  values_eq : ts.flatMap Template.values = values

theorem mapM_spellAll {α : Type} {f : α → Except Error Sql} {g : α → Except Error Template}
    {values : α → List Value} {l : List α}
    (hfg : ∀ a ∈ l, ∀ sql, f a = .ok sql → ∃ t, g a = .ok t ∧ t.Spells sql (values a))
    {parts : List Sql} (h : l.mapM f = .ok parts) :
    ∃ ts, l.mapM g = .ok ts ∧ SpellAll ts parts (l.flatMap values) := by
  induction l generalizing parts with
  | nil =>
    obtain rfl := Except.ok.inj h
    exact ⟨[], rfl, rfl, by simp, rfl⟩
  | cons a l ih =>
    rw [List.mapM_cons] at h
    obtain ⟨sql, hsql, h⟩ := bind_eq_ok.mp h
    obtain ⟨rest, hrest, h⟩ := bind_eq_ok.mp h
    obtain rfl := pure_eq_ok.mp h
    obtain ⟨t, ht, hspells⟩ := hfg a List.mem_cons_self sql hsql
    obtain ⟨ts, hts, hall⟩ := ih (fun b hb => hfg b (List.mem_cons_of_mem a hb)) hrest
    refine ⟨t :: ts, ?_, ?_, ?_, ?_⟩
    · rw [List.mapM_cons, ht, hts]
      rfl
    · rw [List.map_cons, hspells.sql_eq, hall.map_sql]
    · intro u hu
      rcases List.mem_cons.mp hu with rfl | hu
      · exact hspells.sound
      · exact hall.sound u hu
    · rw [List.flatMap_cons, List.flatMap_cons, hspells.values_eq, hall.values_eq]

namespace SpellAll

variable {ts : List Template} {parts : List Sql} {values : List Value}
variable (h : SpellAll ts parts values)
include h

theorem joinWith {separator : String} (hseparator : Closed separator) :
    (Template.joinWith separator ts).Spells
      ⟨Text.joinWith separator (parts.map Sql.text), parts.flatMap Sql.args⟩ values where
  sql_eq := by
    rw [sql, text_joinWith, values_joinWith, ← h.map_sql, List.map_map, List.flatMap_map]
    rfl
  sound := sound_joinWith hseparator h.sound
  values_eq := by rw [values_joinWith, h.values_eq]

theorem group {joiner : String} (hjoiner : Closed joiner) :
    (Template.group joiner ts).Spells (Sql.group joiner parts) values where
  sql_eq := by rw [sql_group, h.map_sql]
  sound := sound_group hjoiner h.sound
  values_eq := by rw [values_group, h.values_eq]

theorem conjunction : (Template.conjunction ts).Spells (Sql.conjunction parts) values where
  sql_eq := by rw [sql_conjunction, h.map_sql]
  sound := sound_conjunction h.sound
  values_eq := by rw [values_conjunction, h.values_eq]

end SpellAll

end Template
end RelMap
