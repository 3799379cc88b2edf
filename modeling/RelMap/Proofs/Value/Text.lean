import RelMap.Proofs.Calendar.Text
import RelMap.Proofs.Json.Writer
import RelMap.Proofs.Uuid
import RelMap.Value.Text

/-! The text of values inside of lists. A list does not say where its texts end, so only values
whose own text cannot hold what stands between two of them are told from what follows. -/
namespace RelMap.Value

open Text (Ends Told joinWith)

/-- What is neither the mark between two values of a list nor the one that closes it. -/
def isInner : Char → Bool := Text.outside [',', ']']

/-- Values whose text can be read inside of a list. A text must not be taken for several, for none
or for `NULL`; bytes do not show in their text. -/
inductive Legible : Value → Prop where
  | null : Legible .null
  | bool (b : Bool) : Legible (.bool b)
  | int (n : Int) : Legible (.int n)
  /-- All that is not a number has one text, so at most one form of it may be met. -/
  | float {x : Binary64} (h : x.isNaN = true → x.bits = 0x7ff8000000000000) : Legible (.float x)
  | text {s : String} (hempty : s ≠ "") (hnull : s ≠ "NULL")
      (hinner : ∀ c ∈ s.toList, isInner c = true) : Legible (.text s)
  | date (d : Date) : Legible (.date d)
  | dateTime {t : DateTime} (h : t.time.Proper) : Legible (.dateTime t)
  | instant {t : DateTime} (h : t.time.Proper) : Legible (.instant t)
  | time {t : TimeOfDay} (h : t.Proper) : Legible (.time t)
  | uuid (u : Uuid) : Legible (.uuid u)
  | json {j : Json} (h : j.Finite) : Legible (.json j)
  | list {values : List Value} (h : ∀ value ∈ values, Legible value) : Legible (.list values)

/-- Values of one column: those of one kind, and `NULL` among them; lists have columns of their
own, one for each position. -/
inductive Alike : Value → Value → Prop where
  | null (b : Value) : Alike .null b
  | orNull (a : Value) : Alike a .null
  | bool (a b : Bool) : Alike (.bool a) (.bool b)
  | int (a b : Int) : Alike (.int a) (.int b)
  | float (a b : Binary64) : Alike (.float a) (.float b)
  | text (a b : String) : Alike (.text a) (.text b)
  | bytes (a b : List UInt8) : Alike (.bytes a) (.bytes b)
  | date (a b : Date) : Alike (.date a) (.date b)
  | dateTime (a b : DateTime) : Alike (.dateTime a) (.dateTime b)
  | instant (a b : DateTime) : Alike (.instant a) (.instant b)
  | time (a b : TimeOfDay) : Alike (.time a) (.time b)
  | uuid (a b : Uuid) : Alike (.uuid a) (.uuid b)
  | json (a b : Json) : Alike (.json a) (.json b)
  | list {as bs : List Value}
      (h : ∀ (i : Nat) (a b : Value), as[i]? = some a → bs[i]? = some b → Alike a b) :
      Alike (.list as) (.list bs)

theorem displayAll_eq (values : List Value) : displayAll values = values.map display := by
  induction values with
  | nil => rfl
  | cons value rest ih => rw [displayAll, ih, List.map_cons]

theorem toList_display_list (values : List Value) (s : List Char) :
    (Value.list values).display.toList ++ s =
      '[' :: ((joinWith ", " (values.map display)).toList ++ ']' :: s) := by
  simp [display, displayAll_eq]

/-- The kinds whose text is a word of digits, small letters and a few marks. -/
def isWord : Value → Bool
  | .bool _ => true
  | .int _ => true
  | .float _ => true
  | .date _ => true
  | .dateTime _ => true
  | .instant _ => true
  | .time _ => true
  | .uuid _ => true
  | _ => false

def isWordChar (c : Char) : Bool := c.isDigit || c.isLower || c ∈ "-+:. NUTC".toList

variable {a b : Value} {c : Char}

private theorem isWordChar_of_digit_or {marks : List Char} (hmarks : marks.all isWordChar = true)
    (hc : c.isDigit = true ∨ c ∈ marks) : isWordChar c = true := by
  rcases hc with hdigit | hmark
  · simp [isWordChar, hdigit]
  · exact List.all_eq_true.mp hmarks c hmark

theorem isWordChar_of_mem (hword : a.isWord = true) (hc : c ∈ a.display.toList) :
    isWordChar c = true := by
  cases a <;> cases hword <;> simp only [display, String.toList_append, List.mem_append] at hc
  case bool b =>
    cases b
    · exact List.all_eq_true.mp (by decide : "false".toList.all isWordChar = true) c hc
    · exact List.all_eq_true.mp (by decide : "true".toList.all isWordChar = true) c hc
  case int n =>
    have hchar : c.isDigit = true ∨ c ∈ ['-'] :=
      (Text.mem_toString_int hc).symm.imp_right List.mem_singleton.mpr
    exact isWordChar_of_digit_or (by decide) hchar
  case float x => exact isWordChar_of_digit_or (by decide) (FloatNotation.mem_format hc)
  case date d => exact isWordChar_of_digit_or (by decide) (Date.mem_text hc)
  case dateTime t => exact isWordChar_of_digit_or (by decide) (DateTime.mem_text hc)
  case instant t =>
    rcases hc with htext | hzone
    · exact isWordChar_of_digit_or (by decide) (DateTime.mem_text htext)
    · exact List.all_eq_true.mp (by decide : " UTC".toList.all isWordChar = true) c hzone
  case time t => exact isWordChar_of_digit_or (by decide) (TimeOfDay.mem_text hc)
  case uuid u =>
    rcases Uuid.mem_text hc with hdigit | hlower | rfl
    · simp [isWordChar, hdigit]
    · simp [isWordChar, hlower]
    · rfl

theorem isInner_of_isWordChar : isWordChar c = true → isInner c = true :=
  Text.outside_of_isWord (by decide)

theorem display_ne_nil_of_word (hword : a.isWord = true) : a.display.toList ≠ [] := by
  have hdate : ∀ t : DateTime, t.text.toList ≠ [] := by
    intro t
    simp [DateTime.text, DateTime.textWith]
  cases a <;> cases hword <;> rw [display]
  case bool b => cases b <;> decide
  case int n => exact Text.toString_int_ne_nil n
  case float x => exact FloatNotation.format_ne_nil _ x
  case date d => simp [Date.toList_text]
  case dateTime t => exact hdate t
  case instant t => simp
  case time t => simp [TimeOfDay.toList_text]
  case uuid u => simp [Uuid.text]

/-- Values of one kind whose texts are words are the same if these are. -/
theorem display_inj_of_word (ha : a.Legible) (hb : b.Legible) (halike : Alike a b)
    (haword : a.isWord = true) (hbword : b.isWord = true) (h : a.display = b.display) :
    a = b := by
  cases halike <;> simp only [isWord, Bool.false_eq_true] at haword hbword <;>
    simp only [display] at h
  case bool a b => cases a <;> cases b <;> first | rfl | exact absurd h (by decide)
  case int m n => rw [Text.toString_int_inj h]
  case float x y =>
    cases ha with | float hx =>
    cases hb with | float hy =>
    have hnan : x.isNaN = true → y.isNaN = true → x = y := by
      intro hxnan hynan
      rw [Binary64.mk.injEq, hx hxnan, hy hynan]
    rw [FloatNotation.format_inj hnan h]
  case date d e => rw [(Date.told_text d e).eq h]
  case dateTime s t =>
    cases ha with | dateTime hs =>
    cases hb with | dateTime ht =>
    rw [DateTime.text_inj hs ht h]
  case instant s t =>
    cases ha with | instant hs =>
    cases hb with | instant ht =>
    rw [DateTime.text_inj hs ht ((String.append_left_inj " UTC").mp h)]
  case time s t =>
    cases ha with | time hs =>
    cases hb with | time ht =>
    rw [TimeOfDay.text_inj hs ht h]
  case uuid u v => rw [Uuid.text_inj h]

theorem told_word (ha : a.Legible) (hb : b.Legible) (halike : Alike a b) (haword : a.isWord = true)
    (hbword : b.isWord = true) : Told isInner display a b := by
  intro s t hs ht h
  obtain ⟨htext, hrest⟩ := Text.eq_of_append_eq
    (fun c hc => isInner_of_isWordChar (isWordChar_of_mem haword hc))
    (fun c hc => isInner_of_isWordChar (isWordChar_of_mem hbword hc)) hs ht h
  exact ⟨display_inj_of_word ha hb halike haword hbword (String.toList_inj.mp htext), hrest⟩

/-- No other value is taken for `NULL`. -/
theorem told_null (ha : a.Legible) : Told isInner display .null a := by
  have hinner : ∀ c ∈ "NULL".toList, isInner c = true :=
    List.all_eq_true.mp (by decide : "NULL".toList.all isInner = true)
  have hword : a.isWord = true → Told isInner display .null a := by
    intro hword s t hs ht h
    obtain ⟨htext, -⟩ := Text.eq_of_append_eq hinner
      (fun c hc => isInner_of_isWordChar (isWordChar_of_mem hword hc)) hs ht h
    have hletter : 'L' ∈ a.display.toList := htext ▸ (by decide : 'L' ∈ "NULL".toList)
    exact absurd (isWordChar_of_mem hword hletter) (by decide)
  cases ha with
  | null => exact fun s t hs ht h => ⟨rfl, List.append_cancel_left h⟩
  | text hempty hnull htextInner =>
    intro s t hs ht h
    obtain ⟨htext, -⟩ := Text.eq_of_append_eq hinner htextInner hs ht h
    exact absurd (String.toList_inj.mp htext).symm hnull
  | @json j hj =>
    intro s t hs ht h
    obtain ⟨c, rest, hc, hopening⟩ := Json.head_compact hj
    rw [show (Value.json j).display = j.compact from rfl, hc] at h
    obtain rfl : 'N' = c := (List.cons.inj h).1
    rcases hopening with hopening | ⟨-, hlower⟩
    · cases j <;> cases hopening
    · cases hlower
  | list hvalues =>
    intro s t hs ht h
    rw [toList_display_list] at h
    exact absurd (List.cons.inj h).1 (by decide)
  | _ => exact hword rfl

/-- No value is taken for the end of its list. -/
theorem head_display_ne (ha : a.Legible) :
    ∃ c rest, a.display.toList = c :: rest ∧ c ≠ ']' := by
  have hinner : ∀ text : List Char, text ≠ [] → (∀ c ∈ text, isInner c = true) →
      ∃ c rest, text = c :: rest ∧ c ≠ ']' := by
    intro text hne htext
    obtain ⟨c, rest, rfl⟩ := List.exists_cons_of_ne_nil hne
    refine ⟨c, rest, rfl, ?_⟩
    rintro rfl
    exact absurd (htext ']' List.mem_cons_self) (by decide)
  have hword : a.isWord = true → ∃ c rest, a.display.toList = c :: rest ∧ c ≠ ']' :=
    fun hword => hinner _ (display_ne_nil_of_word hword)
      fun c hc => isInner_of_isWordChar (isWordChar_of_mem hword hc)
  cases ha with
  | null => exact ⟨_, _, rfl, by decide⟩
  | text hempty hnull htextInner =>
    exact hinner _ (fun hnil => hempty (String.toList_eq_nil_iff.mp hnil)) htextInner
  | json hj => exact Json.head_compact_ne hj
  | @list values hvalues =>
    have hlist := toList_display_list values []
    rw [List.append_nil] at hlist
    exact ⟨_, _, hlist, by decide⟩
  | _ => exact hword rfl

/-- A value is told from what follows it inside of a list, among values of its column. -/
theorem told_display (ha : a.Legible) (hb : b.Legible) (halike : Alike a b) :
    Told isInner display a b := by
  induction halike with
  | null b => exact told_null hb
  | orNull a => exact (told_null ha).symm
  | text x y =>
    cases ha with | text _ _ hx =>
    cases hb with | text _ _ hy =>
    intro s t hs ht h
    obtain ⟨htext, hrest⟩ := Text.eq_of_append_eq hx hy hs ht h
    exact ⟨congrArg Value.text (String.toList_inj.mp htext), hrest⟩
  | bytes x y => cases ha
  | json j k =>
    cases ha with | json hj =>
    cases hb with | json hk =>
    intro s t hs ht h
    have hmore : ∀ c, Json.isInner c = true → isInner c = true :=
      fun c => Text.outside_of_isWord (by decide)
    obtain ⟨rfl, hrest⟩ := (Json.told_compact hj hk).mono hmore s t hs ht h
    exact ⟨rfl, hrest⟩
  | @list as bs _ ih =>
    cases ha with | list has =>
    cases hb with | list hbs =>
    intro s t hs ht h
    rw [toList_display_list, toList_display_list] at h
    have hitems : ∀ (i : Nat) (a b : Value), as[i]? = some a → bs[i]? = some b →
        Told isInner display a b := fun i a b hai hbi =>
      ih i a b hai hbi (has a (List.mem_of_getElem? hai)) (hbs b (List.mem_of_getElem? hbi))
    obtain ⟨rfl, hrest⟩ := Text.eq_of_joinWith_close rfl rfl rfl (by decide) hitems
      (fun a ha => head_display_ne (ha.elim (has a) (hbs a))) (List.cons.inj h).2
    exact ⟨rfl, hrest⟩
  | bool x y => exact told_word ha hb (.bool x y) rfl rfl
  | int x y => exact told_word ha hb (.int x y) rfl rfl
  | float x y => exact told_word ha hb (.float x y) rfl rfl
  | date x y => exact told_word ha hb (.date x y) rfl rfl
  | dateTime x y => exact told_word ha hb (.dateTime x y) rfl rfl
  | instant x y => exact told_word ha hb (.instant x y) rfl rfl
  | time x y => exact told_word ha hb (.time x y) rfl rfl
  | uuid x y => exact told_word ha hb (.uuid x y) rfl rfl

end RelMap.Value
