import RelMap.Calendar.Format
import RelMap.Proofs.Text.Reading

/-! The texts of dates and times, each of which is the text of one date or time only. -/
namespace RelMap

open Text (Ends Told padded)

namespace Date

/-- The sign of a year: none within four digits. -/
def signText (year : Int) : List Char :=
  if 0 ≤ year && year ≤ 9999 then [] else if year < 0 then ['-'] else ['+']

theorem toList_text (d : Date) : d.text.toList = signText d.year ++ ((padded 4 d.year.natAbs).toList
    ++ '-' :: ((padded 2 d.month).toList ++ '-' :: (padded 2 d.day).toList)) := by
  have habs : 0 ≤ d.year → d.year.toNat = d.year.natAbs := by omega
  unfold text signText
  dsimp only
  split_ifs with hfour hneg
  · rw [habs (by simp at hfour; omega)]
    simp
  · simp
  · simp

theorem not_isDigit_of_mem_signText {year : Int} {c : Char} (hc : c ∈ signText year) :
    (!c.isDigit) = true := by
  unfold signText at hc
  split_ifs at hc
  · cases hc
  · rw [List.mem_singleton.mp hc]
    rfl
  · rw [List.mem_singleton.mp hc]
    rfl

theorem year_eq_of_signText {m n : Int} (hsign : signText m = signText n)
    (habs : m.natAbs = n.natAbs) : m = n := by
  unfold signText at hsign
  split_ifs at hsign <;> simp_all <;> omega

/-- A date is told from what follows it. -/
theorem told_text (a b : Date) : Told Char.isDigit text a b := by
  intro s t hs ht h
  have hdash : ∀ rest, Ends Char.isDigit ('-' :: rest) := fun rest => Text.ends_cons.mpr rfl
  have hdigits : ∀ width n, ∀ c ∈ (padded width n).toList, c.isDigit = true :=
    fun width n c => Text.isDigit_of_mem_padded
  rw [toList_text, toList_text] at h
  simp only [List.append_assoc, List.cons_append] at h
  obtain ⟨hsign, h⟩ := Text.eq_of_append_eq (fun c => not_isDigit_of_mem_signText)
    (fun c => not_isDigit_of_mem_signText) (Text.ends_padded _ _ _) (Text.ends_padded _ _ _) h
  obtain ⟨hyear, h⟩ := Text.eq_of_append_eq (hdigits _ _) (hdigits _ _) (hdash _) (hdash _) h
  obtain ⟨hmonth, h⟩ := Text.eq_of_append_eq (hdigits _ _) (hdigits _ _) (hdash _) (hdash _)
    (List.cons.inj h).2
  obtain ⟨hday, h⟩ := Text.eq_of_append_eq (hdigits _ _) (hdigits _ _) hs ht (List.cons.inj h).2
  refine ⟨?_, h⟩
  cases a
  cases b
  rw [Date.mk.injEq]
  exact ⟨year_eq_of_signText hsign (Text.padded_inj hyear), Text.padded_inj hmonth,
    Text.padded_inj hday⟩

theorem mem_text {d : Date} {c : Char} (hc : c ∈ d.text.toList) :
    c.isDigit = true ∨ c ∈ ['-', '+'] := by
  have hsign : c ∈ signText d.year → c ∈ ['-', '+'] := by
    unfold signText
    split_ifs <;> simp +contextual
  rw [toList_text] at hc
  simp only [List.mem_append, List.mem_cons] at hc
  rcases hc with hc | hc | rfl | hc | rfl | hc
  · exact .inr (hsign hc)
  · exact .inl (Text.isDigit_of_mem_padded hc)
  · exact .inr (by decide)
  · exact .inl (Text.isDigit_of_mem_padded hc)
  · exact .inr (by decide)
  · exact .inl (Text.isDigit_of_mem_padded hc)

end Date

/-- The nanoseconds that a fraction stands for. -/
def fractionValue (text : List Char) : Nat :=
  Nat.ofDigitChars 10 text.tail 0 * 10 ^ (9 - text.tail.length)

theorem fractionValue_fractionText {nanosecond : Nat} (h : nanosecond < 1000000000) :
    fractionValue (fractionText nanosecond).toList = nanosecond := by
  have hgroups : ∀ width n, 0 < width → n < 10 ^ width →
      fractionValue ("." ++ padded width n).toList = n * 10 ^ (9 - width) := by
    intro width n hwidth hn
    rw [String.toList_append, fractionValue]
    exact congrArg₂ (fun n k => n * 10 ^ (9 - k)) (Text.ofDigitChars_padded width n)
      (Text.length_padded hwidth hn)
  unfold fractionText
  split_ifs with hzero hmilli hmicro
  · rw [hzero]
    rfl
  · rw [hgroups _ _ (by decide) (by omega)]
    omega
  · rw [hgroups _ _ (by decide) (by omega)]
    omega
  · rw [hgroups _ _ (by decide) h]
    omega

theorem fractionText_inj {m n : Nat} (hm : m < 1000000000) (hn : n < 1000000000)
    (h : (fractionText m).toList = (fractionText n).toList) : m = n := by
  rw [← fractionValue_fractionText hm, h, fractionValue_fractionText hn]

theorem mem_fractionText {nanosecond : Nat} {c : Char}
    (hc : c ∈ (fractionText nanosecond).toList) : c.isDigit = true ∨ c = '.' := by
  have hgroups : ∀ width n, c ∈ ("." ++ padded width n).toList → c.isDigit = true ∨ c = '.' := by
    intro width n hmem
    rw [String.toList_append, List.mem_append] at hmem
    rcases hmem with hpoint | hdigit
    · exact .inr (List.mem_singleton.mp hpoint)
    · exact .inl (Text.isDigit_of_mem_padded hdigit)
  unfold fractionText at hc
  split_ifs at hc
  · cases hc
  all_goals exact hgroups _ _ hc

theorem ends_fractionText (nanosecond : Nat) :
    Ends Char.isDigit (fractionText nanosecond).toList := by
  unfold fractionText
  split_ifs <;> simp [Ends]

namespace TimeOfDay

/-- A time of a clock: sixty seconds a minute, and a leap second in the last one only. -/
structure Proper (t : TimeOfDay) : Prop where
  second_lt : t.second < 60
  nanosecond_lt : t.nanosecond < 2000000000
  second_eq : 1000000000 ≤ t.nanosecond → t.second = 59

theorem proper_of_ofHms? {hour minute second nanosecond : Nat} {t : TimeOfDay}
    (h : ofHms? hour minute second nanosecond = some t) : t.Proper := by
  unfold ofHms? at h
  split_ifs at h with hclock hsecond hleap
  · cases h
    simp only [Bool.and_eq_true, decide_eq_true_eq] at hclock
    refine ⟨hsecond, ?_, fun hlong => ?_⟩ <;> dsimp only at * <;> omega
  · cases h
    simp only [Bool.and_eq_true, decide_eq_true_eq] at hclock
    refine ⟨?_, ?_, fun _ => rfl⟩ <;> dsimp only <;> omega

theorem toList_text (t : TimeOfDay) : t.text.toList = (padded 2 t.hour).toList ++ ':' ::
    ((padded 2 t.minute).toList ++ ':' :: ((padded 2 (t.second + t.nanosecond / 1000000000)).toList
      ++ (fractionText (t.nanosecond % 1000000000)).toList)) := by
  simp [text]

/-- The text of a time on a clock is that of no other: only a leap second is written as the
second 60. -/
theorem text_inj {s t : TimeOfDay} (hs : s.Proper) (ht : t.Proper) (h : s.text = t.text) :
    s = t := by
  have hcolon : ∀ rest, Ends Char.isDigit (':' :: rest) := fun rest => Text.ends_cons.mpr rfl
  have hdigits : ∀ n, ∀ c ∈ (padded 2 n).toList, c.isDigit = true :=
    fun n c => Text.isDigit_of_mem_padded
  have hlist := congrArg String.toList h
  rw [toList_text, toList_text] at hlist
  obtain ⟨hhour, hlist⟩ := Text.eq_of_append_eq (hdigits _) (hdigits _) (hcolon _) (hcolon _) hlist
  obtain ⟨hminute, hlist⟩ := Text.eq_of_append_eq (hdigits _) (hdigits _) (hcolon _) (hcolon _)
    (List.cons.inj hlist).2
  obtain ⟨hsecond, hfraction⟩ := Text.eq_of_append_eq (hdigits _) (hdigits _)
    (ends_fractionText _) (ends_fractionText _) (List.cons.inj hlist).2
  have hrest : s.nanosecond % 1000000000 = t.nanosecond % 1000000000 :=
    fractionText_inj (Nat.mod_lt _ (by decide)) (Nat.mod_lt _ (by decide)) hfraction
  have hshown : s.second + s.nanosecond / 1000000000 = t.second + t.nanosecond / 1000000000 :=
    Text.padded_inj hsecond
  obtain ⟨hslt, hsnano, hsleap⟩ := hs
  obtain ⟨htlt, htnano, htleap⟩ := ht
  cases s
  cases t
  rw [TimeOfDay.mk.injEq]
  refine ⟨Text.padded_inj hhour, Text.padded_inj hminute, ?_, ?_⟩ <;> dsimp only at * <;> omega

theorem mem_text {t : TimeOfDay} {c : Char} (hc : c ∈ t.text.toList) :
    c.isDigit = true ∨ c ∈ [':', '.'] := by
  rw [toList_text] at hc
  simp only [List.mem_append, List.mem_cons] at hc
  rcases hc with hc | rfl | hc | rfl | hc | hc
  · exact .inl (Text.isDigit_of_mem_padded hc)
  · exact .inr (by decide)
  · exact .inl (Text.isDigit_of_mem_padded hc)
  · exact .inr (by decide)
  · exact .inl (Text.isDigit_of_mem_padded hc)
  · exact (mem_fractionText hc).imp_right fun hpoint => by simp [hpoint]

end TimeOfDay

namespace DateTime

theorem text_inj {s t : DateTime} (hs : s.time.Proper) (ht : t.time.Proper)
    (h : s.text = t.text) : s = t := by
  have hlist := congrArg String.toList h
  unfold text textWith at hlist
  simp only [String.toList_append, List.append_assoc] at hlist
  obtain ⟨hdate, hlist⟩ := Date.told_text _ _ _ _ (Text.ends_cons.mpr rfl) (Text.ends_cons.mpr rfl)
    hlist
  have htime : s.time = t.time :=
    TimeOfDay.text_inj hs ht (String.toList_inj.mp (List.cons.inj hlist).2)
  cases s
  cases t
  rw [DateTime.mk.injEq]
  exact ⟨hdate, htime⟩

theorem mem_text {t : DateTime} {c : Char} (hc : c ∈ t.text.toList) :
    c.isDigit = true ∨ c ∈ "-+ :.".toList := by
  unfold text textWith at hc
  simp only [String.toList_append, List.mem_append] at hc
  rcases hc with (hc | hc) | hc
  · exact (Date.mem_text hc).imp_right ((by decide : ['-', '+'] ⊆ "-+ :.".toList) ·)
  · exact .inr ((by decide : " ".toList ⊆ "-+ :.".toList) hc)
  · exact (TimeOfDay.mem_text hc).imp_right ((by decide : [':', '.'] ⊆ "-+ :.".toList) ·)

end DateTime
end RelMap
