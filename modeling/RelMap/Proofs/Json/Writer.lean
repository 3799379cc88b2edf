import RelMap.Json.Token
import RelMap.Json.Writer
import RelMap.Proofs.Numeric.Notation

/-! The compact text of documents. A text literal says where it ends, an array and an object end
where they are closed, and every other document is a word; so a document is told from whatever
follows it. -/
namespace RelMap.Json

open Text (Ends Told joinWith)

/-- The character that an escaped text begins with, and what follows it. -/
def readEscaped : List Char → Option (Char × List Char)
  | '\\' :: 'u' :: '0' :: '0' :: high :: low :: rest => do
    let value := 16 * (← hexValue? high) + (← hexValue? low)
    return (Char.ofNat value, rest)
  | '\\' :: c :: rest => (unescape? c).map (·, rest)
  | c :: rest => some (c, rest)
  | [] => none

theorem hexValue?_digitChar : ∀ n < 16, hexValue? (Nat.digitChar n) = some n := by decide

theorem readEscaped_escaped (c : Char) (rest : List Char) :
    readEscaped (escaped c ++ rest) = some (c, rest) := by
  unfold escaped
  split_ifs with hself hb hf hn hr ht hcontrol
  · simp only [Bool.or_eq_true, decide_eq_true_eq] at hself
    rcases hself with rfl | rfl <;> rfl
  · subst hb; rfl
  · subst hf; rfl
  · subst hn; rfl
  · subst hr; rfl
  · subst ht; rfl
  · have hhigh := hexValue?_digitChar (c.toNat / 16) (by omega)
    have hlow := hexValue?_digitChar (c.toNat % 16) (by omega)
    have hvalue : Char.ofNat (16 * (c.toNat / 16) + c.toNat % 16) = c := by
      rw [Nat.div_add_mod, Char.ofNat_toNat]
    simp [readEscaped, hhigh, hlow, hvalue]
  · simp only [Bool.or_eq_true, decide_eq_true_eq, not_or] at hself
    rw [List.singleton_append, readEscaped]
    all_goals simp [hself.2]

/-- No escaped character begins with the quotation mark that closes a text. -/
theorem head?_escaped (c : Char) : (escaped c).head? ≠ some '"' := by
  unfold escaped
  split_ifs with hself <;> simp_all

theorem escaped_ne_nil (c : Char) : escaped c ≠ [] := by
  unfold escaped
  split_ifs <;> simp

theorem escaped_append_ne (c : Char) (rest tail : List Char) :
    escaped c ++ rest ≠ '"' :: tail := by
  intro h
  have hhead := congrArg List.head? h
  rw [List.head?_append_of_ne_nil _ (escaped_ne_nil c)] at hhead
  exact head?_escaped c hhead

theorem eq_of_flatMap_escaped {a b s t : List Char}
    (h : a.flatMap escaped ++ '"' :: s = b.flatMap escaped ++ '"' :: t) : a = b ∧ s = t := by
  induction a generalizing b with
  | nil =>
    cases b with
    | nil => exact ⟨rfl, (List.cons.inj h).2⟩
    | cons d b =>
      rw [List.flatMap_cons, List.append_assoc] at h
      exact absurd h.symm (escaped_append_ne _ _ _)
  | cons c a ih =>
    cases b with
    | nil =>
      rw [List.flatMap_cons, List.append_assoc] at h
      exact absurd h (escaped_append_ne _ _ _)
    | cons d b =>
      rw [List.flatMap_cons, List.flatMap_cons, List.append_assoc, List.append_assoc] at h
      have hread := congrArg readEscaped h
      rw [readEscaped_escaped, readEscaped_escaped, Option.some_inj, Prod.mk.injEq] at hread
      obtain ⟨rfl, hrest⟩ := hread
      obtain ⟨rfl, rfl⟩ := ih hrest
      exact ⟨rfl, rfl⟩

theorem toList_textLiteral (s : String) :
    (textLiteral s).toList = '"' :: (s.toList.flatMap escaped ++ ['"']) := by
  simp [textLiteral]

/-- A text literal says where it ends. -/
theorem eq_of_textLiteral {a b : String} {s t : List Char}
    (h : (textLiteral a).toList ++ s = (textLiteral b).toList ++ t) : a = b ∧ s = t := by
  rw [toList_textLiteral, toList_textLiteral, List.cons_append, List.cons_append, List.cons.injEq,
    List.append_assoc, List.append_assoc] at h
  obtain ⟨htext, hrest⟩ := eq_of_flatMap_escaped h.2
  exact ⟨String.toList_inj.mp htext, hrest⟩

/-- Documents whose numbers are finite, which all are that were read. -/
inductive Finite : Json → Prop where
  | null : Finite .null
  | bool (b : Bool) : Finite (.bool b)
  | int (n : Int) : Finite (.int n)
  | float {x : Binary64} (h : x.isFinite = true) : Finite (.float x)
  | str (s : String) : Finite (.str s)
  | arr {items : List Json} (h : ∀ item ∈ items, Finite item) : Finite (.arr items)
  | obj {entries : List (String × Json)} (h : ∀ entry ∈ entries, Finite entry.2) :
      Finite (.obj entries)

/-- The mark that opens a document; words have none. -/
def opening? : Json → Option Char
  | .str _ => some '"'
  | .arr _ => some '['
  | .obj _ => some '\x7b'
  | _ => none

def isWordChar (c : Char) : Bool := c.isDigit || c.isLower || c ∈ ['.', '+', '-']

/-- What may stand behind a document inside of another. -/
def isInner : Char → Bool := Text.outside [',', ']', '\x7d']

theorem isInner_of_isWordChar {c : Char} : isWordChar c = true → isInner c = true :=
  Text.outside_of_isWord (by decide)

variable {a b : Json}

private theorem isWordChar_of_number {c : Char} (hc : c.isDigit = true ∨ c ∈ ['.', 'e', '+', '-']) :
    isWordChar c = true := by
  rcases hc with hdigit | hmark
  · simp [isWordChar, hdigit]
  · exact List.all_eq_true.mp (by decide : ['.', 'e', '+', '-'].all isWordChar = true) c hmark

private theorem isDigit_or_mem_toString {n : Int} {c : Char} (hc : c ∈ (toString n).toList) :
    c.isDigit = true ∨ c ∈ ['.', 'e', '+', '-'] :=
  (Text.mem_toString_int hc).symm.imp_right fun hsign => by simp [hsign]

theorem isWordChar_of_mem (ha : a.Finite) (hword : a.opening? = none) {c : Char}
    (hc : c ∈ a.compact.toList) : isWordChar c = true := by
  cases ha with
  | null => exact List.all_eq_true.mp (by decide : "null".toList.all isWordChar = true) c hc
  | bool value =>
    cases value
    · exact List.all_eq_true.mp (by decide : "false".toList.all isWordChar = true) c hc
    · exact List.all_eq_true.mp (by decide : "true".toList.all isWordChar = true) c hc
  | int n => exact isWordChar_of_number (isDigit_or_mem_toString hc)
  | float h => exact isWordChar_of_number (FloatNotation.mem_format_of_isFinite h hc)
  | _ => cases hword

theorem compact_ne_nil_of_word (ha : a.Finite) (hword : a.opening? = none) :
    a.compact.toList ≠ [] := by
  cases ha with
  | null => decide
  | bool value => cases value <;> decide
  | int n =>
    rw [compact]
    exact Text.toString_int_ne_nil n
  | float h =>
    obtain ⟨c, hc, -⟩ := FloatNotation.exists_mark_format (n := .document) rfl h
    exact List.ne_nil_of_mem hc
  | _ => cases hword

/-- A number is not a word of letters. -/
private theorem ne_of_number {text word : String} (hword : word ∈ ["null", "true", "false"])
    (htext : ∀ c ∈ text.toList, c.isDigit = true ∨ c ∈ ['.', 'e', '+', '-']) : text ≠ word := by
  have hletter : ∀ word ∈ ["null", "true", "false"],
      (word.toList.all fun c => c.isDigit || c ∈ ['.', 'e', '+', '-']) = false := by decide
  have hnumber : (text.toList.all fun c => c.isDigit || c ∈ ['.', 'e', '+', '-']) = true := by
    simpa [List.all_eq_true] using htext
  rintro rfl
  rw [hletter text hword] at hnumber
  cases hnumber

private theorem toString_ne_format {n : Int} {x : Binary64} (hx : x.isFinite = true) :
    toString n ≠ FloatNotation.document.format x := by
  intro h
  obtain ⟨c, hc, hmark⟩ := FloatNotation.exists_mark_format (n := .document) rfl hx
  rw [← h] at hc
  have hkind := Text.mem_toString_int hc
  rcases hmark with rfl | rfl <;> revert hkind <;> decide

theorem compact_inj_of_word (ha : a.Finite) (hb : b.Finite) (haword : a.opening? = none)
    (hbword : b.opening? = none) (h : a.compact = b.compact) : a = b := by
  have hwords : ∀ (value : Bool),
      (if value then "true" else "false") ∈ ["null", "true", "false"] := by decide
  cases ha <;> simp only [opening?, reduceCtorEq] at haword <;>
    cases hb <;> simp only [opening?, reduceCtorEq] at hbword <;> simp only [compact] at h
  case null.null => rfl
  case null.bool value => cases value <;> exact absurd h (by decide)
  case bool.null value => cases value <;> exact absurd h (by decide)
  case bool.bool value other =>
    cases value <;> cases other <;> first | rfl | exact absurd h (by decide)
  case int.int m n => rw [Text.toString_int_inj h]
  case float.float x hx y hy =>
    have hnan : ∀ z : Binary64, z.isFinite = true → z.isNaN = true → False := by
      intro z hz hnan
      rw [Binary64.isNaN_of_isFinite hz] at hnan
      cases hnan
    rw [FloatNotation.format_inj (fun hxnan => (hnan x hx hxnan).elim) h]
  case int.float n x hx => exact absurd h (toString_ne_format hx)
  case float.int x hx n => exact absurd h.symm (toString_ne_format hx)
  case null.int => exact absurd h.symm (ne_of_number (by decide) fun c => isDigit_or_mem_toString)
  case int.null => exact absurd h (ne_of_number (by decide) fun c => isDigit_or_mem_toString)
  case null.float x hx =>
    exact absurd h.symm (ne_of_number (by decide) fun c => FloatNotation.mem_format_of_isFinite hx)
  case float.null x hx =>
    exact absurd h (ne_of_number (by decide) fun c => FloatNotation.mem_format_of_isFinite hx)
  case bool.int => exact absurd h.symm (ne_of_number (hwords _) fun c => isDigit_or_mem_toString)
  case int.bool => exact absurd h (ne_of_number (hwords _) fun c => isDigit_or_mem_toString)
  case bool.float x hx =>
    exact absurd h.symm (ne_of_number (hwords _) fun c => FloatNotation.mem_format_of_isFinite hx)
  case float.bool x hx _ =>
    exact absurd h (ne_of_number (hwords _) fun c => FloatNotation.mem_format_of_isFinite hx)

theorem compactItems_eq (items : List Json) : compactItems items = items.map compact := by
  induction items with
  | nil => rfl
  | cons item rest ih => rw [compactItems, ih, List.map_cons]

def entryText (entry : String × Json) : String := textLiteral entry.1 ++ ":" ++ entry.2.compact

theorem compactEntries_eq (entries : List (String × Json)) :
    compactEntries entries = entries.map entryText := by
  induction entries with
  | nil => rfl
  | cons entry rest ih => rw [compactEntries, ih, List.map_cons, entryText]

theorem head_compact (ha : a.Finite) : ∃ c rest, a.compact.toList = c :: rest ∧
    (a.opening? = some c ∨ a.opening? = none ∧ isWordChar c = true) := by
  cases hopening : a.opening? with
  | none =>
    obtain ⟨c, rest, hc⟩ := List.exists_cons_of_ne_nil (compact_ne_nil_of_word ha hopening)
    exact ⟨c, rest, hc, .inr ⟨rfl, isWordChar_of_mem ha hopening (hc ▸ List.mem_cons_self)⟩⟩
  | some mark =>
    cases a <;> cases hopening
    · exact ⟨_, _, toList_textLiteral _, .inl rfl⟩
    · exact ⟨'[', _, by simp [compact]; rfl, .inl rfl⟩
    · exact ⟨'\x7b', _, by simp [compact]; rfl, .inl rfl⟩

theorem opening?_eq (ha : a.Finite) (hb : b.Finite) {s t : List Char}
    (h : a.compact.toList ++ s = b.compact.toList ++ t) : a.opening? = b.opening? := by
  have hmark : ∀ {j : Json} {c : Char}, j.opening? = some c → isWordChar c = false := by
    intro j c hj
    cases j <;> cases hj <;> rfl
  obtain ⟨c, rest, hc, haopening⟩ := head_compact ha
  obtain ⟨d, more, hd, hbopening⟩ := head_compact hb
  rw [hc, hd] at h
  obtain rfl : c = d := (List.cons.inj h).1
  rcases haopening with haopening | ⟨haopening, hcword⟩ <;>
    rcases hbopening with hbopening | ⟨hbopening, hdword⟩
  · rw [haopening, hbopening]
  · rw [hmark haopening] at hdword
    cases hdword
  · rw [hmark hbopening] at hcword
    cases hcword
  · rw [haopening, hbopening]

/-- Documents without a mark are told by their words. -/
theorem told_word (ha : a.Finite) (hb : b.Finite) (hword : a.opening? = none) :
    Told isInner compact a b := by
  intro s t hs ht h
  have hbword : b.opening? = none := (opening?_eq ha hb h).symm.trans hword
  obtain ⟨htext, hrest⟩ := Text.eq_of_append_eq
    (fun c hc => isInner_of_isWordChar (isWordChar_of_mem ha hword hc))
    (fun c hc => isInner_of_isWordChar (isWordChar_of_mem hb hbword hc)) hs ht h
  exact ⟨compact_inj_of_word ha hb hword hbword (String.toList_inj.mp htext), hrest⟩

theorem toList_compact_arr (items : List Json) (s : List Char) :
    (Json.arr items).compact.toList ++ s =
      '[' :: ((joinWith "," (items.map compact)).toList ++ ']' :: s) := by
  simp [compact, compactItems_eq]

theorem toList_compact_obj (entries : List (String × Json)) (s : List Char) :
    (Json.obj entries).compact.toList ++ s =
      '\x7b' :: ((joinWith "," (entries.map entryText)).toList ++ '\x7d' :: s) := by
  simp [compact, compactEntries_eq]

theorem told_entryText {a b : String × Json} (h : Told isInner compact a.2 b.2) :
    Told isInner entryText a b := by
  intro s t hs ht heq
  simp only [entryText, String.toList_append, List.append_assoc] at heq
  obtain ⟨hkey, hrest⟩ := eq_of_textLiteral heq
  obtain ⟨hvalue, hrest⟩ := h s t hs ht (List.append_cancel_left hrest)
  exact ⟨Prod.ext hkey hvalue, hrest⟩

theorem head_compact_ne (ha : a.Finite) : ∃ c rest, a.compact.toList = c :: rest ∧ c ≠ ']' := by
  obtain ⟨c, rest, hc, hopening | ⟨-, hword⟩⟩ := head_compact ha
  · refine ⟨c, rest, hc, ?_⟩
    rintro rfl
    cases a <;> cases hopening
  · refine ⟨c, rest, hc, ?_⟩
    rintro rfl
    cases hword

theorem head_entryText (entry : String × Json) :
    ∃ c rest, (entryText entry).toList = c :: rest ∧ c ≠ '\x7d' := by
  rw [entryText, String.toList_append, String.toList_append, toList_textLiteral]
  exact ⟨_, _, rfl, by decide⟩

/-- A document is told from what follows it inside of another document. -/
theorem told_compact (ha : a.Finite) (hb : b.Finite) : Told isInner compact a b := by
  induction ha generalizing b with
  | @arr items hitems ih =>
    intro s t hs ht heq
    have hopening := opening?_eq (.arr hitems) hb heq
    cases hb <;> cases hopening
    case arr.refl others hothers =>
      rw [toList_compact_arr, toList_compact_arr] at heq
      obtain ⟨rfl, hrest⟩ := Text.eq_of_joinWith_close rfl rfl rfl (by decide)
        (fun i a b hai hbi => ih a (List.mem_of_getElem? hai) (hothers b (List.mem_of_getElem? hbi)))
        (fun a ha => head_compact_ne (ha.elim (hitems a) (hothers a))) (List.cons.inj heq).2
      exact ⟨rfl, hrest⟩
  | @obj entries hentries ih =>
    intro s t hs ht heq
    have hopening := opening?_eq (.obj hentries) hb heq
    cases hb <;> cases hopening
    case obj.refl others hothers =>
      rw [toList_compact_obj, toList_compact_obj] at heq
      obtain ⟨rfl, hrest⟩ := Text.eq_of_joinWith_close rfl rfl rfl (by decide)
        (fun i a b hai hbi => told_entryText
          (ih a (List.mem_of_getElem? hai) (hothers b (List.mem_of_getElem? hbi))))
        (fun a _ => head_entryText a) (List.cons.inj heq).2
      exact ⟨rfl, hrest⟩
  | str value =>
    intro s t hs ht heq
    have hopening := opening?_eq (.str value) hb heq
    cases hb <;> cases hopening
    case str.refl other =>
      obtain ⟨rfl, hrest⟩ := eq_of_textLiteral heq
      exact ⟨rfl, hrest⟩
  | null => exact told_word .null hb rfl
  | bool value => exact told_word (.bool value) hb rfl
  | int n => exact told_word (.int n) hb rfl
  | float h => exact told_word (.float h) hb rfl

end RelMap.Json
