import Mathlib.Data.List.Forall2
import RelMap.Text.Regex

/-! Which texts a regular expression accepts: those that split along its parts. The engine of this
library reads every expression back from its written form, whatever characters its literal parts
are made of, and follows all ways to split a text at once. -/
namespace RelMap

section Splitting

variable {α : Type} {R : α → List Char → Prop} {a : α} {l m : List α} {text : List Char}

/-- The text can be cut into pieces, one for each element and in their order. -/
def Splits (R : α → List Char → Prop) (l : List α) (text : List Char) : Prop :=
  ∃ pieces, List.Forall₂ R l pieces ∧ pieces.flatten = text

@[simp] theorem splits_nil : Splits R [] text ↔ text = [] := by
  constructor
  · rintro ⟨pieces, hpieces, rfl⟩
    rw [List.forall₂_nil_left_iff.mp hpieces, List.flatten_nil]
  · rintro rfl
    exact ⟨[], .nil, rfl⟩

theorem splits_cons :
    Splits R (a :: l) text ↔ ∃ piece rest, R a piece ∧ Splits R l rest ∧ piece ++ rest = text := by
  constructor
  · rintro ⟨pieces, hpieces, rfl⟩
    obtain ⟨piece, more, hpiece, hmore, rfl⟩ := List.forall₂_cons_left_iff.mp hpieces
    exact ⟨piece, more.flatten, hpiece, ⟨more, hmore, rfl⟩, rfl⟩
  · rintro ⟨piece, rest, hpiece, ⟨more, hmore, rfl⟩, rfl⟩
    exact ⟨piece :: more, .cons hpiece hmore, rfl⟩

theorem splits_singleton : Splits R [a] text ↔ R a text := by
  rw [splits_cons]
  simp

theorem splits_append :
    Splits R (l ++ m) text ↔
      ∃ read rest, Splits R l read ∧ Splits R m rest ∧ read ++ rest = text := by
  induction l generalizing text with
  | nil => simp
  | cons a l ih =>
    rw [List.cons_append, splits_cons]
    constructor
    · rintro ⟨piece, more, hpiece, hmore, rfl⟩
      obtain ⟨read, rest, hread, hrest, rfl⟩ := ih.mp hmore
      have hfirst : Splits R (a :: l) (piece ++ read) :=
        splits_cons.mpr ⟨piece, read, hpiece, hread, rfl⟩
      exact ⟨piece ++ read, rest, hfirst, hrest, List.append_assoc piece read rest⟩
    · rintro ⟨first, rest, hfirst, hrest, rfl⟩
      obtain ⟨piece, read, hpiece, hread, rfl⟩ := splits_cons.mp hfirst
      have hmore : Splits R (l ++ m) (read ++ rest) := ih.mpr ⟨read, rest, hread, hrest, rfl⟩
      exact ⟨piece, read ++ rest, hpiece, hmore, (List.append_assoc piece read rest).symm⟩

end Splitting

namespace Regex

/-- The pieces of text that a part stands for. -/
def Part.Matches : Part → List Char → Prop
  | .literal text, piece => piece = text.toList
  | .any, piece => piece.length = 1
  | .anyRun, _ => True

/-- The rules of regular expressions that patterns rely on. Whatever its parts are, an expression
written for the engine is read, and it accepts the texts that split along these parts. -/
structure Engine.Lawful (engine : Engine) : Prop where
  compiles : ∀ parts, ∃ accepts, engine.compile (write parts) = .ok accepts ∧
    ∀ text : String, accepts text = true ↔ Splits Part.Matches parts text.toList

section Reading

/-- The characters of a literal part as parts of their own, which is how they are read. -/
def Part.single : Part → List Part
  | .literal text => text.toList.map .char
  | part => [part]

/-- The characters of a text as they are escaped. -/
def escaped (chars : List Char) : List Char :=
  chars.flatMap fun c => if isMeta c then ['\\', c] else [c]

theorem escaped_cons (c : Char) (chars : List Char) :
    escaped (c :: chars) = (if isMeta c then ['\\', c] else [c]) ++ escaped chars := rfl

theorem readParts?_escaped (chars rest : List Char) :
    readParts? (escaped chars ++ rest) = (readParts? rest).map (chars.map .char ++ ·) := by
  induction chars with
  | nil => simp [escaped]
  | cons c chars ih =>
    have hread : readParts? (escaped (c :: chars) ++ rest) =
        (readParts? (escaped chars ++ rest)).map (.char c :: ·) := by
      rw [escaped_cons]
      by_cases hmeta : isMeta c = true
      · rw [if_pos hmeta]
        simp [readParts?, hmeta]
      · have hdollar : c ≠ '$' := fun h => hmeta (h ▸ by decide)
        have hdot : c ≠ '.' := fun h => hmeta (h ▸ by decide)
        have hslash : c ≠ '\\' := fun h => hmeta (h ▸ by decide)
        rw [if_neg hmeta]
        simp [readParts?, hmeta, hdollar, hdot, hslash]
    rw [hread, ih, Option.map_map]
    rfl

/-- No part begins with the sign that would make a run of the dot before it. -/
theorem head?_writeParts (parts : List Part) :
    ((writeParts parts).toList ++ ['$']).head? ≠ some '*' := by
  induction parts with
  | nil => decide
  | cons part parts ih =>
    rw [writeParts, String.toList_append, List.append_assoc]
    cases part with
    | any => simp [Part.write]
    | anyRun => simp [Part.write]
    | literal text =>
      have hwrite : (Part.write (.literal text)).toList = escaped text.toList :=
        String.toList_ofList
      rw [hwrite]
      cases text.toList with
      | nil => exact ih
      | cons c chars =>
        rw [escaped_cons]
        by_cases hmeta : isMeta c = true
        · rw [if_pos hmeta]
          simp
        · have hstar : c ≠ '*' := fun h => hmeta (h ▸ by decide)
          rw [if_neg hmeta]
          simpa using hstar

theorem readParts?_any {rest : List Char} (h : rest.head? ≠ some '*') :
    readParts? ('.' :: rest) = (readParts? rest).map (.any :: ·) := by
  cases rest with
  | nil => rfl
  | cons c rest =>
    have hstar : c ≠ '*' := by simpa using h
    simp [readParts?, hstar]

/-- Parts are read back one by one, the literal ones character by character. -/
theorem readParts?_writeParts (parts : List Part) :
    readParts? ((writeParts parts).toList ++ ['$']) = some (parts.flatMap Part.single) := by
  induction parts with
  | nil => rfl
  | cons part parts ih =>
    rw [writeParts, String.toList_append, List.append_assoc, List.flatMap_cons]
    cases part with
    | literal text =>
      have hwrite : (Part.write (.literal text)).toList = escaped text.toList :=
        String.toList_ofList
      rw [hwrite, readParts?_escaped, ih]
      rfl
    | any =>
      have hdot : (Part.write .any).toList = ['.'] := rfl
      rw [hdot, List.singleton_append, readParts?_any (head?_writeParts parts), ih]
      rfl
    | anyRun =>
      have hrun : (Part.write .anyRun).toList = ['.', '*'] := rfl
      rw [hrun, List.cons_append, List.singleton_append, readParts?, ih]
      rfl

theorem read?_write (parts : List Part) :
    read? (write parts) = some (parts.flatMap Part.single) := by
  have htext : (write parts).toList =
      "(?s)^".toList ++ ((writeParts parts).toList ++ ['$']) := by
    rw [write, String.toList_append, String.toList_append, List.append_assoc]
    rfl
  rw [read?, htext, Text.dropStart?_append, Option.bind_some, readParts?_writeParts]

theorem splits_char {chars text : List Char} :
    Splits Part.Matches (chars.map .char) text ↔ text = chars := by
  induction chars generalizing text with
  | nil => exact splits_nil
  | cons c chars ih =>
    rw [List.map_cons, splits_cons]
    simp only [ih]
    constructor
    · rintro ⟨piece, rest, hpiece, rfl, rfl⟩
      have hc : piece = [c] := hpiece.trans String.toList_ofList
      rw [hc, List.singleton_append]
    · rintro rfl
      exact ⟨[c], chars, String.toList_ofList.symm, rfl, rfl⟩

/-- It makes no difference to a text whether literal parts are read as a whole. -/
theorem splits_single {parts : List Part} {text : List Char} :
    Splits Part.Matches (parts.flatMap Part.single) text ↔ Splits Part.Matches parts text := by
  induction parts generalizing text with
  | nil => rfl
  | cons part parts ih =>
    have hpart : ∀ piece, Splits Part.Matches part.single piece ↔ part.Matches piece := by
      intro piece
      cases part with
      | literal text => exact splits_char
      | any | anyRun => exact splits_singleton
    rw [List.flatMap_cons, splits_append, splits_cons]
    simp only [hpart, ih]

end Reading

section Following

/-- Ends of one text, each of which is an end of those before it. -/
def Descending (rests : List (List Char)) : Prop := rests.Pairwise fun a b => b <:+ a

theorem mem_suffixes {text rest : List Char} : rest ∈ suffixes text ↔ rest <:+ text := by
  induction text with
  | nil => simp [suffixes]
  | cons c text ih => rw [suffixes, List.mem_cons, ih, List.suffix_cons_iff]

theorem descending_suffixes (text : List Char) : Descending (suffixes text) := by
  induction text with
  | nil => exact List.pairwise_singleton _ _
  | cons c text ih =>
    refine List.Pairwise.cons (fun rest hrest => ?_) ih
    exact (mem_suffixes.mp hrest).trans (List.suffix_cons c text)

/-- Of two ends of a text, the pieces at their fronts leave ends of it in the same order. -/
theorem suffix_of_append {piece piece' rest rest' : List Char}
    (hlength : piece.length = piece'.length) (h : piece' ++ rest' <:+ piece ++ rest) :
    rest' <:+ rest := by
  have hrest' : rest' <:+ piece ++ rest := (List.suffix_append piece' rest').trans h
  refine List.suffix_of_suffix_length_le hrest' (List.suffix_append piece rest) ?_
  have hle := h.length_le
  rw [List.length_append, List.length_append] at hle
  omega

theorem tail?_eq_some_iff {text rest : List Char} :
    text.tail? = some rest ↔ ∃ piece, piece.length = 1 ∧ piece ++ rest = text := by
  constructor
  · intro h
    cases text with
    | nil => cases h
    | cons c text =>
      obtain rfl := Option.some.inj h
      exact ⟨[c], rfl, rfl⟩
  · rintro ⟨piece, hpiece, rfl⟩
    obtain ⟨c, rfl⟩ := List.length_eq_one_iff.mp hpiece
    rfl

theorem dropStart?_eq_some_iff {start text rest : List Char} :
    Text.dropStart? start text = some rest ↔ start ++ rest = text := by
  constructor
  · intro h
    exact (Text.eq_append_of_dropStart? h).symm
  · rintro rfl
    exact Text.dropStart?_append start rest

variable {part : Part} {rests : List (List Char)}

theorem descending_step (h : Descending rests) : Descending (part.step rests) := by
  cases part with
  | literal text =>
    refine List.Pairwise.filterMap _ (fun a a' haa' b hb b' hb' => ?_) h
    rw [dropStart?_eq_some_iff] at hb hb'
    exact suffix_of_append rfl (hb' ▸ hb ▸ haa')
  | any =>
    refine List.Pairwise.filterMap _ (fun a a' haa' b hb b' hb' => ?_) h
    obtain ⟨piece, hpiece, rfl⟩ := tail?_eq_some_iff.mp hb
    obtain ⟨piece', hpiece', rfl⟩ := tail?_eq_some_iff.mp hb'
    exact suffix_of_append (hpiece.trans hpiece'.symm) haa'
  | anyRun =>
    cases rests with
    | nil => exact .nil
    | cons longest others => exact descending_suffixes longest

/-- After a part stands what is left of a rest before it by a piece that the part stands for. -/
theorem mem_step (h : Descending rests) {rest : List Char} :
    rest ∈ part.step rests ↔ ∃ piece, part.Matches piece ∧ piece ++ rest ∈ rests := by
  cases part with
  | literal text =>
    rw [Part.step, List.mem_filterMap]
    simp only [dropStart?_eq_some_iff, Part.Matches]
    constructor
    · rintro ⟨before, hbefore, rfl⟩
      exact ⟨text.toList, rfl, hbefore⟩
    · rintro ⟨piece, rfl, hpiece⟩
      exact ⟨text.toList ++ rest, hpiece, rfl⟩
  | any =>
    rw [Part.step, List.mem_filterMap]
    simp only [tail?_eq_some_iff, Part.Matches]
    constructor
    · rintro ⟨before, hbefore, piece, hpiece, rfl⟩
      exact ⟨piece, hpiece, hbefore⟩
    · rintro ⟨piece, hpiece, hmem⟩
      exact ⟨piece ++ rest, hmem, piece, hpiece, rfl⟩
  | anyRun =>
    cases rests with
    | nil => simp [Part.step]
    | cons longest others =>
      -- An end of any other rest is an end of the longest one.
      have hlongest : ∀ before ∈ longest :: others, before <:+ longest := by
        intro before hbefore
        rcases List.mem_cons.mp hbefore with rfl | hother
        · exact List.suffix_rfl
        · exact (List.pairwise_cons.mp h).1 before hother
      have hsuffix : rest ∈ Part.step .anyRun (longest :: others) ↔ rest <:+ longest :=
        mem_suffixes
      rw [hsuffix]
      constructor
      · rintro ⟨piece, rfl⟩
        exact ⟨piece, trivial, List.mem_cons_self⟩
      · rintro ⟨piece, -, hmem⟩
        exact (List.suffix_append piece rest).trans (hlongest _ hmem)

/-- What is left after all parts is left of a rest before them by a text that splits along them. -/
theorem mem_foldl_step {parts : List Part} (h : Descending rests) {rest : List Char} :
    rest ∈ parts.foldl (fun rests part => part.step rests) rests ↔
      ∃ read, Splits Part.Matches parts read ∧ read ++ rest ∈ rests := by
  induction parts generalizing rests with
  | nil => simp
  | cons part parts ih =>
    rw [List.foldl_cons, ih (descending_step h)]
    simp only [mem_step h, splits_cons]
    constructor
    · rintro ⟨read, hread, piece, hpiece, hmem⟩
      rw [← List.append_assoc] at hmem
      exact ⟨piece ++ read, ⟨piece, read, hpiece, hread, rfl⟩, hmem⟩
    · rintro ⟨_, ⟨piece, read, hpiece, hread, rfl⟩, hmem⟩
      rw [List.append_assoc] at hmem
      exact ⟨read, hread, piece, hpiece, hmem⟩

theorem accepts_iff {parts : List Part} {text : String} :
    accepts parts text = true ↔ Splits Part.Matches parts text.toList := by
  have hstart : Descending [text.toList] := List.pairwise_singleton _ _
  have hwhole : accepts parts text = true ↔
      [] ∈ parts.foldl (fun rests part => part.step rests) [text.toList] := by
    simp [accepts, List.any_eq_true]
  rw [hwhole, mem_foldl_step hstart]
  simp

end Following

theorem engine_compile {expression : String} {parts : List Part}
    (h : read? expression = some parts) : engine.compile expression = .ok (accepts parts) := by
  simp only [Engine.compile, h]

/-- The engine of this library follows the rules. -/
theorem engine_lawful : engine.Lawful where
  compiles parts := by
    refine ⟨accepts (parts.flatMap Part.single), engine_compile (read?_write parts), fun text => ?_⟩
    rw [accepts_iff, splits_single]

end Regex
end RelMap
