import RelMap.Numeric.Notation
import RelMap.Proofs.Numeric.Binary64
import RelMap.Proofs.Numeric.Shortest
import RelMap.Proofs.Text.Reading

/-! The texts of floating-point numbers. Whatever the notation, a text stands for the shortest
decimal of its number, and so for no other number. -/
namespace RelMap

namespace Numeral

/-- The number of digits behind a sign, if there is one. -/
def signed : List Char → Int
  | '-' :: digits => -(Nat.ofDigitChars 10 digits 0)
  | '+' :: digits => Nat.ofDigitChars 10 digits 0
  | digits => Nat.ofDigitChars 10 digits 0

/-- The number that digits with a point and an exponent stand for. -/
def value (text : List Char) : ℚ :=
  let mantissa := text.takeWhile (· ≠ 'e')
  let exponent := signed (text.dropWhile (· ≠ 'e')).tail
  let whole := mantissa.takeWhile (· ≠ '.')
  let fraction := (mantissa.dropWhile (· ≠ '.')).tail
  Nat.ofDigitChars 10 (whole ++ fraction) 0 * 10 ^ (exponent - fraction.length)

/-- A text of this number that begins with a digit. -/
structure Denotes (text : List Char) (v : ℚ) : Prop where
  head : ∃ c ∈ text.head?, c.isDigit = true
  chars : ∀ c ∈ text, c.isDigit = true ∨ c ∈ ['.', 'e', '+', '-']
  value_eq : value text = v

theorem signed_of_digits {digits : List Char} (h : ∀ c ∈ digits, c.isDigit = true) :
    signed digits = Nat.ofDigitChars 10 digits 0 := by
  unfold signed
  split
  · exact absurd (h '-' List.mem_cons_self) (by decide)
  · exact absurd (h '+' List.mem_cons_self) (by decide)
  · rfl

theorem signed_toString (n : Int) : signed (toString n).toList = n := by
  have habs := Text.ofDigitChars_toString n.natAbs
  rw [Text.toList_toString_int]
  split_ifs with hneg
  · rw [List.singleton_append, signed, habs]
    omega
  · rw [List.nil_append, signed_of_digits fun c => Text.isDigit_of_mem_toString, habs]
    omega

theorem signed_plus {n : Int} (hn : 0 ≤ n) : signed ('+' :: (toString n).toList) = n := by
  have habs := Text.ofDigitChars_toString n.natAbs
  rw [Text.toList_toString_int, if_neg (by omega), List.nil_append, signed, habs]
  omega

/-- Digits, and behind them a point with more digits or an exponent, or both. -/
theorem denotes_of_parts {whole fraction dotted powered : List Char} {exponent : Int}
    (hne : whole ≠ []) (hwhole : ∀ c ∈ whole, c.isDigit = true)
    (hfraction : ∀ c ∈ fraction, c.isDigit = true)
    (hdotted : dotted = [] ∧ fraction = [] ∨ dotted = '.' :: fraction)
    (hpowered : powered = [] ∧ exponent = 0 ∨ ∃ text, powered = 'e' :: text ∧
      signed text = exponent ∧ ∀ c ∈ text, c.isDigit = true ∨ c ∈ ['+', '-']) :
    Denotes (whole ++ dotted ++ powered)
      (Nat.ofDigitChars 10 (whole ++ fraction) 0 * 10 ^ (exponent - fraction.length)) := by
  have hpoint : ∀ c ∈ whole, decide (c ≠ '.') = true := by
    intro c hc
    rw [decide_eq_true_eq]
    rintro rfl
    exact absurd (hwhole '.' hc) (by decide)
  have hmantissa : ∀ c ∈ whole ++ dotted, decide (c ≠ 'e') = true := by
    intro c hc
    rw [decide_eq_true_eq]
    rintro rfl
    rcases List.mem_append.mp hc with hc | hc
    · exact absurd (hwhole 'e' hc) (by decide)
    · rcases hdotted with ⟨rfl, -⟩ | rfl
      · cases hc
      · exact absurd (hfraction 'e' (List.mem_of_ne_of_mem (by decide) hc)) (by decide)
  have hdottedEnds : Text.Ends (fun c => decide (c ≠ '.')) dotted := by
    rcases hdotted with ⟨rfl, -⟩ | rfl
    · exact Text.ends_nil _
    · exact Text.ends_cons.mpr (by decide)
  have hpoweredEnds : Text.Ends (fun c => decide (c ≠ 'e')) powered := by
    rcases hpowered with ⟨rfl, -⟩ | ⟨text, rfl, -⟩
    · exact Text.ends_nil _
    · exact Text.ends_cons.mpr (by decide)
  have hfractionEq : dotted.tail = fraction := by
    rcases hdotted with ⟨rfl, rfl⟩ | rfl <;> rfl
  have hexponent : signed powered.tail = exponent := by
    rcases hpowered with ⟨rfl, rfl⟩ | ⟨text, rfl, htext, -⟩
    · rfl
    · exact htext
  refine ⟨?_, ?_, ?_⟩
  · obtain ⟨c, rest, rfl⟩ := List.exists_cons_of_ne_nil hne
    exact ⟨c, rfl, hwhole c List.mem_cons_self⟩
  · intro c hc
    rcases List.mem_append.mp hc with hc | hc
    · rcases List.mem_append.mp hc with hc | hc
      · exact .inl (hwhole c hc)
      · rcases hdotted with ⟨rfl, -⟩ | rfl
        · cases hc
        · rcases List.mem_cons.mp hc with rfl | hc
          · exact .inr (by decide)
          · exact .inl (hfraction c hc)
    · rcases hpowered with ⟨rfl, -⟩ | ⟨text, rfl, -, htext⟩
      · cases hc
      · rcases List.mem_cons.mp hc with rfl | hc
        · exact .inr (by decide)
        · refine (htext c hc).imp_right fun hsign => ?_
          rcases List.mem_pair.mp hsign with rfl | rfl <;> decide
  · unfold value
    dsimp only
    rw [Text.takeWhile_of_ends hmantissa hpoweredEnds, Text.dropWhile_of_ends hmantissa hpoweredEnds,
      Text.takeWhile_of_ends hpoint hdottedEnds, Text.dropWhile_of_ends hpoint hdottedEnds,
      hfractionEq, hexponent]

/-- Without an exponent, zeros behind a number are what multiplies it. -/
theorem denotes_of_point {whole fraction dotted : List Char} {n : Nat} (zeros : Nat) {e : Int}
    (hne : whole ≠ []) (hwhole : ∀ c ∈ whole, c.isDigit = true)
    (hfraction : ∀ c ∈ fraction, c.isDigit = true)
    (hdotted : dotted = [] ∧ fraction = [] ∨ dotted = '.' :: fraction)
    (hnumber : Nat.ofDigitChars 10 (whole ++ fraction) 0 = n * 10 ^ zeros)
    (he : (zeros : Int) - fraction.length = e) : Denotes (whole ++ dotted) (n * 10 ^ e) := by
  have hparts := denotes_of_parts hne hwhole hfraction hdotted (.inl ⟨rfl, rfl⟩)
  have hvalue : ((n * 10 ^ zeros : Nat) : ℚ) * 10 ^ (0 - (fraction.length : Int)) = n * 10 ^ e := by
    rw [← he, Nat.cast_mul, Nat.cast_pow, Nat.cast_ofNat, mul_assoc, ← zpow_natCast,
      ← zpow_add₀ (by norm_num), zero_sub, ← sub_eq_add_neg]
  rwa [List.append_nil, hnumber, hvalue] at hparts

end Numeral

namespace FloatNotation

open Numeral (Denotes)

private theorem isDigit_of_mem_zeros {count : Nat} {c : Char}
    (hc : c ∈ List.replicate count '0') : c.isDigit = true := by
  rw [List.eq_of_mem_replicate hc]
  rfl

/-- Zeros behind digits multiply their number. -/
private theorem ofDigitChars_zeros {digits : List Char} {n : Nat}
    (hnumber : Nat.ofDigitChars 10 digits 0 = n) (count : Nat) :
    Nat.ofDigitChars 10 (digits ++ List.replicate count '0') 0 = n * 10 ^ count := by
  rw [Nat.ofDigitChars_append, hnumber, Nat.ofDigitChars_replicate_zero, Nat.mul_comm]

theorem denotes_positionalText (keepsPoint : Bool) (d : Decimal) :
    Denotes (positionalText keepsPoint d).toList d.value := by
  have hdigits : ∀ c ∈ (toString d.digits).toList, c.isDigit = true :=
    fun c => Text.isDigit_of_mem_toString
  have hnumber := Text.ofDigitChars_toString d.digits
  unfold positionalText Decimal.value
  dsimp only
  generalize hd : (toString d.digits).toList = digits at hdigits hnumber
  have hne : digits ≠ [] := hd ▸ Text.toString_ne_nil d.digits
  have hpadded : ∀ count, ∀ c ∈ digits ++ List.replicate count '0', c.isDigit = true := by
    intro count c hc
    exact (List.mem_append.mp hc).elim (hdigits c) isDigit_of_mem_zeros
  split_ifs with hexponent hpoint hwhole
  · have hdouble : Nat.ofDigitChars 10 (digits ++ List.replicate d.exponent.toNat '0' ++ ['0']) 0 =
        d.digits * 10 ^ (d.exponent.toNat + 1) := by
      rw [List.append_assoc, ← List.replicate_succ', ofDigitChars_zeros hnumber]
    rw [String.toList_append, String.toList_ofList]
    have hzero : ∀ c ∈ ['0'], c.isDigit = true := List.forall_mem_singleton.mpr rfl
    refine Numeral.denotes_of_point (d.exponent.toNat + 1)
      (List.append_ne_nil_of_left_ne_nil hne _) (hpadded _) hzero (.inr rfl) hdouble ?_
    rw [List.length_singleton]
    omega
  · rw [String.toList_append, String.toList_ofList]
    refine Numeral.denotes_of_point d.exponent.toNat (List.append_ne_nil_of_left_ne_nil hne _)
      (hpadded _) (by simp) (.inl ⟨rfl, rfl⟩) ?_ (Int.toNat_of_nonneg hexponent)
    rw [List.append_nil, ofDigitChars_zeros hnumber]
  · have hlength : (digits.drop (digits.length - (-d.exponent).toNat)).length =
        (-d.exponent).toNat := by
      rw [List.length_drop]
      omega
    rw [String.toList_ofList]
    refine Numeral.denotes_of_point 0 ?_ (fun c hc => hdigits c (List.mem_of_mem_take hc))
      (fun c hc => hdigits c (List.mem_of_mem_drop hc)) (.inr rfl) ?_ (by omega)
    · rw [Ne, List.take_eq_nil_iff]
      exact not_or.mpr ⟨by omega, hne⟩
    · rw [List.take_append_drop, hnumber, Nat.pow_zero, Nat.mul_one]
  · have hzero : ∀ c ∈ ['0'], c.isDigit = true := List.forall_mem_singleton.mpr rfl
    rw [String.toList_ofList, List.cons_append, List.cons_append]
    refine Numeral.denotes_of_point 0 (List.cons_ne_nil _ _) hzero ?_ (.inr rfl) ?_ ?_
    · intro c hc
      exact (List.mem_append.mp hc).elim isDigit_of_mem_zeros (hdigits c)
    · rw [List.singleton_append, ← List.cons_append, ← List.replicate_succ, Nat.ofDigitChars_append,
        Nat.ofDigitChars_replicate_zero, Nat.mul_zero, hnumber, Nat.pow_zero, Nat.mul_one]
    · rw [List.length_append, List.length_replicate]
      omega

theorem denotes_scientificText (signsExponent : Bool) (d : Decimal) :
    Denotes (scientificText signsExponent d).toList d.value := by
  have hdigits : ∀ c ∈ (toString d.digits).toList, c.isDigit = true :=
    fun c => Text.isDigit_of_mem_toString
  have hnumber := Text.ofDigitChars_toString d.digits
  unfold scientificText Decimal.value
  dsimp only
  generalize hd : (toString d.digits).toList = digits at hdigits hnumber
  obtain ⟨c, rest, rfl⟩ := List.exists_cons_of_ne_nil (hd ▸ Text.toString_ne_nil d.digits)
  generalize he : d.exponent + (c :: rest).length - 1 = e
  have hvalue : d.exponent = e - rest.length := by
    rw [← he, List.length_cons]
    omega
  have hsigned : ∀ n : Int, Numeral.signed ((if signsExponent && 0 ≤ n then "+" else "").toList ++
      (toString n).toList) = n := by
    intro n
    split_ifs with hsign
    · exact Numeral.signed_plus (by simpa using (Bool.and_eq_true_iff.mp hsign).2)
    · exact Numeral.signed_toString n
  have hsign : ∀ x ∈ (if signsExponent && 0 ≤ e then "+" else "").toList ++ (toString e).toList,
      x.isDigit = true ∨ x ∈ ['+', '-'] := by
    intro x hx
    rcases List.mem_append.mp hx with hx | hx
    · split_ifs at hx
      · exact .inr (by rw [List.mem_singleton.mp hx]; decide)
      · cases hx
    · exact (Text.mem_toString_int hx).symm.imp_right fun h => by simp [h]
  have hmantissa : ∀ dotted : List Char, dotted = [] ∧ rest = [] ∨ dotted = '.' :: rest →
      Denotes ([c] ++ dotted ++ 'e' :: ((if signsExponent && 0 ≤ e then "+" else "").toList ++
        (toString e).toList)) (d.digits * 10 ^ d.exponent) := by
    intro dotted hdotted
    rw [hvalue, ← hnumber]
    exact Numeral.denotes_of_parts (by simp)
      (fun x hx => hdigits x (List.mem_singleton.mp hx ▸ List.mem_cons_self))
      (fun x hx => hdigits x (List.mem_cons_of_mem c hx)) hdotted (.inr ⟨_, rfl, hsigned e, hsign⟩)
  simp only [String.toList_append, String.toList_ofList, List.append_assoc]
  cases rest with
  | nil => exact hmantissa [] (.inl ⟨rfl, rfl⟩)
  | cons r rest => exact hmantissa ('.' :: r :: rest) (.inr rfl)

/-- The text of the magnitude of a finite number. -/
def magnitudeText (n : FloatNotation) (x : Binary64) : String :=
  if x.isZero then if n.keepsPoint then "0.0" else "0"
  else
    let d := Decimal.shortest n.tie x
    let leading := d.exponent + (toString d.digits).length - 1
    let fits := match n.positional with
      | none => true
      | some (low, high) => low ≤ leading && leading ≤ high
    if fits then positionalText n.keepsPoint d else scientificText n.signsExponent d

/-- The text of a number without its sign. -/
def unsignedText (n : FloatNotation) (x : Binary64) : String :=
  if x.isInfinite then "inf" else n.magnitudeText x

theorem format_eq (n : FloatNotation) (x : Binary64) :
    n.format x = if x.isNaN then "NaN" else
      (if x.isNegative then "-" else "") ++ n.unsignedText x := by
  unfold format unsignedText magnitudeText
  dsimp only
  by_cases hnan : x.isNaN = true
  · rw [if_pos hnan, if_pos hnan]
  · by_cases hinfinite : x.isInfinite = true
    · rw [if_neg hnan, if_neg hnan, if_pos hinfinite, if_pos hinfinite]
    · rw [if_neg hnan, if_neg hnan, if_neg hinfinite, if_neg hinfinite]
      by_cases hzero : x.isZero = true
      · rw [if_pos hzero, if_pos hzero]
      · rw [if_neg hzero]
        exact congrArg ((if x.isNegative = true then "-" else "") ++ ·) (if_neg hzero).symm

variable {n : FloatNotation} {x y : Binary64}

theorem denotes_magnitudeText (n : FloatNotation) (x : Binary64) :
    Denotes (n.magnitudeText x).toList
      (if x.isZero then 0 else (Decimal.shortest n.tie x).value) := by
  have hzero : ∀ c ∈ ['0'], c.isDigit = true := List.forall_mem_singleton.mpr rfl
  have hnone : ∀ c ∈ ([] : List Char), c.isDigit = true := by simp
  unfold magnitudeText
  dsimp only
  split_ifs
  · simpa using Numeral.denotes_of_point (n := 0) 1 (List.cons_ne_nil _ _) hzero hzero (.inr rfl)
      rfl rfl
  · simpa using Numeral.denotes_of_point (n := 0) 0 (List.cons_ne_nil _ _) hzero hnone
      (.inl ⟨rfl, rfl⟩) rfl rfl
  · exact denotes_positionalText n.keepsPoint _
  · exact denotes_scientificText n.signsExponent _

/-- The text of a magnitude is that of no other. -/
theorem magnitude_eq_of_text (hx : x.isFinite = true) (hy : y.isFinite = true)
    (h : n.magnitudeText x = n.magnitudeText y) : x.magnitude = y.magnitude := by
  have hvalue := (denotes_magnitudeText n x).value_eq
  rw [h, (denotes_magnitudeText n y).value_eq] at hvalue
  cases hxzero : x.isZero <;> cases hyzero : y.isZero <;>
    simp only [hxzero, hyzero, if_true, if_false, Bool.false_eq_true] at hvalue
  · exact Decimal.magnitude_eq_of_value_shortest hxzero hyzero hx hy hvalue.symm
  · exact absurd hvalue (Decimal.shortest_value_pos hxzero hx).ne
  · exact absurd hvalue.symm (Decimal.shortest_value_pos hyzero hy).ne
  · rw [of_decide_eq_true hxzero, of_decide_eq_true hyzero]

theorem toList_format (hnan : x.isNaN = false) :
    (n.format x).toList = (if x.isNegative = true then ['-'] else []) ++
      (n.unsignedText x).toList := by
  rw [format_eq, hnan, if_neg Bool.false_ne_true, String.toList_append]
  cases x.isNegative <;> rfl

theorem head?_unsignedText (n : FloatNotation) (x : Binary64) :
    ∃ c, (n.unsignedText x).toList.head? = some c ∧ (c = 'i' ∨ c.isDigit = true) := by
  unfold unsignedText
  split_ifs
  · exact ⟨'i', rfl, .inl rfl⟩
  · obtain ⟨c, hc, hdigit⟩ := (denotes_magnitudeText n x).head
    exact ⟨c, hc, .inr hdigit⟩

theorem head?_unsignedText_ne {c : Char} (hi : c ≠ 'i') (hdigit : c.isDigit = false) :
    (n.unsignedText x).toList.head? ≠ some c := by
  obtain ⟨d, hd, hkind⟩ := head?_unsignedText n x
  rw [hd, Ne, Option.some_inj]
  rintro rfl
  rw [hdigit] at hkind
  exact hkind.elim hi Bool.false_ne_true

theorem format_ne_nil (n : FloatNotation) (x : Binary64) : (n.format x).toList ≠ [] := by
  cases hx : x.isNaN
  · obtain ⟨c, hc, -⟩ := head?_unsignedText n x
    rw [toList_format hx]
    exact List.append_ne_nil_of_right_ne_nil _ (List.ne_nil_of_mem (List.mem_of_head? hc))
  · rw [format_eq, hx, if_pos rfl]
    decide

theorem magnitude_eq_of_unsignedText (hx : x.isNaN = false) (hy : y.isNaN = false)
    (h : (n.unsignedText x).toList = (n.unsignedText y).toList) : x.magnitude = y.magnitude := by
  have hmark : ∀ z, (n.magnitudeText z).toList ≠ "inf".toList := by
    intro z hz
    obtain ⟨c, hc, hdigit⟩ := (denotes_magnitudeText n z).head
    rw [hz] at hc
    cases hc
    cases hdigit
  cases hxinf : x.isInfinite <;> cases hyinf : y.isInfinite <;>
    simp only [unsignedText, hxinf, hyinf, if_true, if_false, Bool.false_eq_true] at h
  · exact magnitude_eq_of_text (Binary64.isFinite_of_not hx hxinf) (Binary64.isFinite_of_not hy hyinf)
      (String.toList_inj.mp h)
  · exact absurd h (hmark x)
  · exact absurd h.symm (hmark y)
  · rw [of_decide_eq_true hxinf, of_decide_eq_true hyinf]

/-- The text of a number is that of no other; what is not a number has one text only. -/
theorem format_inj (hnan : x.isNaN = true → y.isNaN = true → x = y)
    (h : n.format x = n.format y) : x = y := by
  have hhead : ∀ z : Binary64, z.isNaN = false → n.format z ≠ "NaN" := by
    intro z hz hformat
    have hlist := toList_format (n := n) hz
    rw [hformat] at hlist
    split_ifs at hlist
    · exact absurd (List.cons.inj hlist).1 (by decide)
    · exact head?_unsignedText_ne (n := n) (x := z) (c := 'N') (by decide) rfl (by
        rw [← List.nil_append (n.unsignedText z).toList, ← hlist]
        rfl)
  cases hx : x.isNaN <;> cases hy : y.isNaN
  · have hlist := congrArg String.toList h
    rw [toList_format hx, toList_format hy] at hlist
    obtain ⟨hsign, hunsigned⟩ := Text.eq_of_sign_append
      (head?_unsignedText_ne (by decide) rfl) (head?_unsignedText_ne (by decide) rfl) hlist
    exact Binary64.eq_of_magnitude (Bool.eq_iff_iff.mpr hsign)
      (magnitude_eq_of_unsignedText hx hy hunsigned)
  · exact absurd (h.trans (by rw [format_eq, hy]; rfl)) (hhead x hx)
  · exact absurd (h.symm.trans (by rw [format_eq, hx]; rfl)) (hhead y hy)
  · exact hnan hx hy

/-- The characters that the texts of finite numbers are made of. -/
theorem mem_format_of_isFinite (hx : x.isFinite = true) {c : Char}
    (hc : c ∈ (n.format x).toList) : c.isDigit = true ∨ c ∈ ['.', 'e', '+', '-'] := by
  rw [toList_format (Binary64.isNaN_of_isFinite hx), unsignedText, Binary64.isInfinite_of_isFinite hx,
    List.mem_append] at hc
  rcases hc with hsign | hmagnitude
  · split_ifs at hsign
    · exact .inr (by rw [List.mem_singleton.mp hsign]; decide)
    · cases hsign
  · exact (denotes_magnitudeText n x).chars c hmagnitude

/-- The characters that the texts of numbers are made of. -/
theorem mem_format {c : Char} (hc : c ∈ (n.format x).toList) :
    c.isDigit = true ∨ c ∈ ".e+-infNa".toList := by
  by_cases hx : x.isFinite = true
  · exact (mem_format_of_isFinite hx hc).imp_right
      ((by decide : ['.', 'e', '+', '-'] ⊆ ".e+-infNa".toList) ·)
  · have hspecial : n.format x ∈ ["NaN", "inf", "-inf"] := by
      rw [format_eq]
      split_ifs with hnan hneg
      · simp
      all_goals
        have hinfinite : x.isInfinite = true := by
          by_contra hinfinite
          exact hx (Binary64.isFinite_of_not (by simpa using hnan) (by simpa using hinfinite))
        simp [unsignedText, hinfinite]
    have hmarks : ∀ text ∈ ["NaN", "inf", "-inf"], text.toList ⊆ ".e+-infNa".toList := by decide
    exact .inr (hmarks _ hspecial hc)

theorem point_mem_positionalText (d : Decimal) : '.' ∈ (positionalText true d).toList := by
  unfold positionalText
  dsimp only
  rw [if_pos rfl]
  split_ifs
  · rw [String.toList_append]
    exact List.mem_append_right _ (by decide)
  · rw [String.toList_ofList]
    exact List.mem_append_right _ List.mem_cons_self
  · rw [String.toList_ofList, List.cons_append, List.cons_append]
    exact List.mem_cons_of_mem _ List.mem_cons_self

theorem exists_mark_magnitudeText (hpoint : n.keepsPoint = true) (x : Binary64) :
    ∃ c ∈ (n.magnitudeText x).toList, c = '.' ∨ c = 'e' := by
  unfold magnitudeText
  dsimp only
  rw [hpoint, if_pos rfl]
  split_ifs
  · exact ⟨'.', by decide, .inl rfl⟩
  · exact ⟨'.', point_mem_positionalText _, .inl rfl⟩
  · exact ⟨'e', by simp [scientificText], .inr rfl⟩

/-- Where a whole number keeps its point, no text of a number is one of an integer. -/
theorem exists_mark_format (hpoint : n.keepsPoint = true) (hx : x.isFinite = true) :
    ∃ c ∈ (n.format x).toList, c = '.' ∨ c = 'e' := by
  obtain ⟨c, hc, hmark⟩ := exists_mark_magnitudeText hpoint x
  rw [toList_format (Binary64.isNaN_of_isFinite hx), unsignedText, Binary64.isInfinite_of_isFinite hx]
  exact ⟨c, List.mem_append_right _ hc, hmark⟩

end FloatNotation
end RelMap
