import Mathlib.Algebra.Order.Field.Power
import Mathlib.Data.Rat.Cast.Order
import Mathlib.Tactic.Linarith
import Mathlib.Tactic.Positivity
import Mathlib.Tactic.Ring
import RelMap.Numeric.Shortest

/-! The shortest decimal of a number. Grids that are fine enough have a point in every interval, and
one of these is reached; so the decimal rounds to the number and to no other. -/
namespace RelMap

namespace Decimal

/-- The number that a decimal stands for. -/
def value (d : Decimal) : ℚ := d.digits * 10 ^ d.exponent

namespace Interval

/-- The number that is `n` units of an interval. -/
def point (i : Interval) (n : Nat) : ℚ := n * 2 ^ i.unit

/-- The numbers that an interval is made of. -/
def Holds (i : Interval) (v : ℚ) : Prop :=
  if i.closed then i.point i.low ≤ v ∧ v ≤ i.point i.high
  else i.point i.low < v ∧ v < i.point i.high

variable {i : Interval} {tie : Tie} {k : Int} {d : Nat}

private theorem pow_toNat (b : Nat) (hb : b ≠ 0) (z : Int) :
    ((b ^ z.toNat : Nat) : ℚ) = (b : ℚ) ^ z * ((b ^ (-z).toNat : Nat) : ℚ) := by
  have hb' : (b : ℚ) ≠ 0 := by exact_mod_cast hb
  rw [Nat.cast_pow, Nat.cast_pow, ← zpow_natCast, ← zpow_natCast, ← zpow_add₀ hb']
  congr 1
  omega

/-- Units of an interval and steps of a grid are compared in integers. -/
private theorem scaled (u k : Int) : ∃ c : ℚ, 0 < c ∧
    ((Nat.pow 2 u.toNat * Nat.pow 10 (-k).toNat : Nat) : ℚ) = 2 ^ u * c ∧
    ((Nat.pow 2 (-u).toNat * Nat.pow 10 k.toNat : Nat) : ℚ) = 10 ^ k * c := by
  refine ⟨((2 ^ (-u).toNat : Nat) : ℚ) * ((10 ^ (-k).toNat : Nat) : ℚ), by positivity, ?_, ?_⟩
  · rw [Nat.cast_mul, Nat.pow_eq, Nat.pow_eq, pow_toNat 2 (by decide) u]
    push_cast
    ring
  · rw [Nat.cast_mul, Nat.pow_eq, Nat.pow_eq, pow_toNat 10 (by decide) k]
    push_cast
    ring

/-- Whether `n` is in an interval, given how many of the same parts its unit has. -/
def inside (i : Interval) (up n : Nat) : Bool :=
  if i.closed then i.low * up ≤ n && n ≤ i.high * up else i.low * up < n && n < i.high * up

/-- Which of two neighbours is taken, if any holds: the nearer one, given what is left over above
the lower one. -/
def pick? (tie : Tie) (holds : Nat → Bool) (below rest down : Nat) : Option Nat :=
  match holds below, holds (below + 1) with
  | true, true =>
    if 2 * rest < down then some below
    else if down < 2 * rest then some (below + 1)
    else match tie with
      | .up => some (below + 1)
      | .toEven => some (below + below % 2)
  | true, false => some below
  | false, true => some (below + 1)
  | false, false => none

theorem gridPoint?_eq (i : Interval) (tie : Tie) (k : Int) :
    let up := Nat.pow 2 i.unit.toNat * Nat.pow 10 (-k).toNat
    let down := Nat.pow 2 (-i.unit).toNat * Nat.pow 10 k.toNat
    i.gridPoint? tie k = pick? tie (fun d => i.inside up (d * down)) (i.value * up / down)
      (i.value * up % down) down := rfl

theorem holds_of_pick? {holds : Nat → Bool} {below rest down : Nat}
    (h : pick? tie holds below rest down = some d) : holds d = true := by
  unfold pick? at h
  split at h
  · next hbelow habove =>
    have heven : holds (below + below % 2) = true := by
      rcases Nat.mod_two_eq_zero_or_one below with hmod | hmod
      · rwa [hmod]
      · rwa [hmod]
    split_ifs at h
    · rwa [← Option.some.inj h]
    · rwa [← Option.some.inj h]
    · cases tie with
      | up => rwa [← Option.some.inj h]
      | toEven => rwa [← Option.some.inj h]
  · next hbelow _ => rwa [← Option.some.inj h]
  · next _ habove => rwa [← Option.some.inj h]
  · cases h

theorem exists_pick? {holds : Nat → Bool} {below rest down : Nat} (h : holds below = true) :
    ∃ d, pick? tie holds below rest down = some d := by
  unfold pick?
  rw [h]
  cases holds (below + 1) with
  | false => exact ⟨below, rfl⟩
  | true =>
    dsimp only
    split_ifs
    · exact ⟨_, rfl⟩
    · exact ⟨_, rfl⟩
    · cases tie <;> exact ⟨_, rfl⟩

theorem inside_iff {up down : Nat} {c : ℚ} (hc : 0 < c) (hup : (up : ℚ) = 2 ^ i.unit * c)
    (hdown : (down : ℚ) = 10 ^ k * c) :
    i.inside up (d * down) = true ↔ i.Holds (Decimal.value ⟨d, k⟩) := by
  have hpoint : ∀ n : Nat, ((n * up : Nat) : ℚ) = i.point n * c := by
    intro n
    rw [Nat.cast_mul, hup, point, mul_assoc]
  have hgrid : ((d * down : Nat) : ℚ) = Decimal.value ⟨d, k⟩ * c := by
    rw [Nat.cast_mul, hdown, Decimal.value, mul_assoc]
  unfold inside Holds
  split_ifs
  · simp only [Bool.and_eq_true, decide_eq_true_eq]
    rw [← Nat.cast_le (α := ℚ), ← Nat.cast_le (α := ℚ), hpoint, hpoint, hgrid]
    rw [mul_le_mul_iff_left₀ hc, mul_le_mul_iff_left₀ hc]
  · simp only [Bool.and_eq_true, decide_eq_true_eq]
    rw [← Nat.cast_lt (α := ℚ), ← Nat.cast_lt (α := ℚ), hpoint, hpoint, hgrid]
    rw [mul_lt_mul_iff_left₀ hc, mul_lt_mul_iff_left₀ hc]

theorem holds_of_gridPoint? (h : i.gridPoint? tie k = some d) :
    i.Holds (Decimal.value ⟨d, k⟩) := by
  obtain ⟨c, hc, hup, hdown⟩ := scaled i.unit k
  rw [gridPoint?_eq] at h
  have hinside := holds_of_pick? h
  exact (inside_iff hc hup hdown).mp hinside

/-- A grid that is as fine as a unit has a point in an interval with a unit below its value. -/
theorem exists_gridPoint? (hlow : i.low < i.value) (hhigh : i.value < i.high)
    (hk : (10 : ℚ) ^ k ≤ 2 ^ i.unit) : ∃ d, i.gridPoint? tie k = some d := by
  obtain ⟨c, hc, hup, hdown⟩ := scaled i.unit k
  rw [gridPoint?_eq]
  refine exists_pick? ?_
  generalize Nat.pow 2 i.unit.toNat * Nat.pow 10 (-k).toNat = up at hup
  generalize Nat.pow 2 (-i.unit).toNat * Nat.pow 10 k.toNat = down at hdown
  have hfine : down ≤ up := by
    have : (down : ℚ) ≤ up := by
      rw [hup, hdown]
      exact mul_le_mul_of_nonneg_right hk hc.le
    exact_mod_cast this
  have hpositive : 0 < down := by
    have : (0 : ℚ) < down := by
      rw [hdown]
      positivity
    exact_mod_cast this
  have hdiv := Nat.div_add_mod (i.value * up) down
  have hrest := Nat.mod_lt (i.value * up) hpositive
  have hbelow : i.low * up < i.value * up / down * down := by
    have hstep : (i.low + 1) * up ≤ i.value * up := Nat.mul_le_mul_right up hlow
    rw [Nat.add_mul, Nat.one_mul] at hstep
    rw [Nat.mul_comm (_ / _)]
    omega
  have habove : i.value * up / down * down < i.high * up := by
    have hstep : i.value * up < i.high * up := Nat.mul_lt_mul_of_pos_right hhigh (by omega)
    rw [Nat.mul_comm (_ / _)]
    omega
  unfold inside
  split_ifs
  · simp only [Bool.and_eq_true, decide_eq_true_eq]
    exact ⟨hbelow.le, habove.le⟩
  · simp only [Bool.and_eq_true, decide_eq_true_eq]
    exact ⟨hbelow, habove⟩

/-- A search that comes to a grid with a point ends on one. -/
theorem holds_search {steps : Nat} (hlow : i.low < i.value) (hhigh : i.value < i.high)
    (hk : (10 : ℚ) ^ (k - steps) ≤ 2 ^ i.unit) : i.Holds (i.search tie (steps + 1) k).value := by
  induction steps generalizing k with
  | zero =>
    obtain ⟨d, hd⟩ : ∃ d, i.gridPoint? tie k = some d :=
      exists_gridPoint? hlow hhigh (by simpa using hk)
    rw [search, hd]
    exact holds_of_gridPoint? hd
  | succ steps ih =>
    rw [search]
    split
    · next d hd => exact holds_of_gridPoint? hd
    · refine ih ?_
      rwa [show k - 1 - (steps : Int) = k - ((steps + 1 : Nat) : Int) by omega]

end Interval

/-- A power of ten is at most a power of two that is nearly as large, by `10 ^ 3 < 2 ^ 10` or, below
one, by `2 ^ 33 < 10 ^ 10`. -/
private theorem ten_zpow_le {k u : Int} (hpositive : 0 ≤ u → 10 * k ≤ 3 * u)
    (hnegative : u < 0 → 33 * k ≤ 10 * u) : (10 : ℚ) ^ k ≤ 2 ^ u := by
  rcases Int.lt_or_le u 0 with hu | hu
  · rw [← zpow_le_zpow_iff_left₀ (by positivity) (by positivity) (show (0 : Int) < 33 by decide),
      ← zpow_mul, ← zpow_mul, mul_comm k, mul_comm u]
    calc (10 : ℚ) ^ (33 * k) ≤ 10 ^ (10 * u) :=
          zpow_le_zpow_right₀ (by norm_num) (hnegative hu)
      _ = ((10 ^ (10 : Int)) ^ (-u))⁻¹ := by rw [← zpow_mul, ← zpow_neg]; congr 1; ring
      _ ≤ ((2 ^ (33 : Int)) ^ (-u))⁻¹ := by
          refine inv_anti₀ (by positivity) ?_
          exact zpow_le_zpow_left₀ (by omega) (by positivity) (by norm_num)
      _ = 2 ^ (33 * u) := by rw [← zpow_mul, ← zpow_neg]; congr 1; ring
  · rcases Int.lt_or_le 0 k with hk | hk
    · rw [← zpow_le_zpow_iff_left₀ (by positivity) (by positivity) (show (0 : Int) < 3 by decide),
        ← zpow_mul, ← zpow_mul, mul_comm k, mul_comm u]
      calc (10 : ℚ) ^ (3 * k) = (10 ^ (3 : Int)) ^ k := by rw [zpow_mul]
        _ ≤ (2 ^ (10 : Int)) ^ k := zpow_le_zpow_left₀ hk.le (by positivity) (by norm_num)
        _ = 2 ^ (10 * k) := by rw [← zpow_mul]
        _ ≤ 2 ^ (3 * u) := zpow_le_zpow_right₀ (by norm_num) (hpositive hu)
    · calc (10 : ℚ) ^ k ≤ 1 := zpow_le_one_of_nonpos₀ (by norm_num) hk
        _ ≤ 2 ^ u := one_le_zpow₀ (by norm_num) hu

end Decimal

namespace Binary64

/-- The significand of a finite number of this magnitude. -/
def significandAt (n : Nat) : Nat :=
  if n < implicitBit then n % implicitBit else implicitBit + n % implicitBit

/-- The scale of a finite number of this magnitude. -/
def scaleAt (n : Nat) : Int := (max (n / implicitBit) 1 : Nat) - 1075

/-- The absolute value of a finite number of this magnitude. -/
def valueAt (n : Nat) : ℚ := significandAt n * 2 ^ scaleAt n

/-- The middle between a magnitude and the next one. -/
def middleAfter (n : Nat) : ℚ := (valueAt n + valueAt (n + 1)) / 2

theorem valueAt_succ (n : Nat) : valueAt (n + 1) = valueAt n + 2 ^ scaleAt n := by
  -- The last significand of a scale is followed by the first one of the next.
  have hstep : (scaleAt (n + 1) = scaleAt n ∧ significandAt (n + 1) = significandAt n + 1) ∨
      (scaleAt (n + 1) = scaleAt n + 1 ∧ 2 * significandAt (n + 1) = significandAt n + 1) := by
    unfold scaleAt significandAt implicitBit
    split_ifs <;> omega
  unfold valueAt
  rcases hstep with ⟨hscale, hsignificand⟩ | ⟨hscale, hsignificand⟩
  · rw [hscale, hsignificand]
    push_cast
    ring
  · have hcast : 2 * (significandAt (n + 1) : ℚ) = significandAt n + 1 := by
      exact_mod_cast hsignificand
    rw [hscale, zpow_add_one₀ two_ne_zero]
    calc (significandAt (n + 1) : ℚ) * (2 ^ scaleAt n * 2)
        = 2 ^ scaleAt n * (2 * significandAt (n + 1)) := by ring
      _ = 2 ^ scaleAt n * (significandAt n + 1) := by rw [hcast]
      _ = significandAt n * 2 ^ scaleAt n + 2 ^ scaleAt n := by ring

theorem valueAt_strictMono : StrictMono valueAt := by
  refine strictMono_nat_of_lt_succ fun n => ?_
  rw [valueAt_succ]
  exact lt_add_of_pos_right _ (by positivity)

theorem middleAfter_strictMono : StrictMono middleAfter := by
  intro m n hmn
  have hfirst := valueAt_strictMono hmn
  have hsecond := valueAt_strictMono (Nat.succ_lt_succ hmn)
  unfold middleAfter
  linarith

variable {x y : Binary64} {tie : Decimal.Tie}

theorem significand_eq (x : Binary64) : x.significand = significandAt x.magnitude := rfl

theorem scale_eq (x : Binary64) : x.scale = scaleAt x.magnitude := rfl

theorem point_high_around (x : Binary64) :
    (Decimal.Interval.around x).point (Decimal.Interval.around x).high =
      middleAfter x.magnitude := by
  have hhalf : (2 : ℚ) ^ (scaleAt x.magnitude - 2) = 2 ^ scaleAt x.magnitude / 4 := by
    rw [zpow_sub₀ two_ne_zero]
    norm_num
  unfold Decimal.Interval.point Decimal.Interval.around
  dsimp only
  rw [significand_eq, scale_eq, hhalf, middleAfter, valueAt_succ, valueAt]
  push_cast
  ring

theorem point_low_around {n : Nat} (hn : x.magnitude = n + 1) :
    (Decimal.Interval.around x).point (Decimal.Interval.around x).low = middleAfter n := by
  have hpositive : 0 < significandAt (n + 1) := by
    unfold significandAt implicitBit
    split_ifs <;> omega
  have hquarter : (2 : ℚ) ^ (scaleAt (n + 1) - 2) = 2 ^ scaleAt (n + 1) / 4 := by
    rw [zpow_sub₀ two_ne_zero]
    norm_num
  have hmiddle : middleAfter n = valueAt (n + 1) - 2 ^ scaleAt n / 2 := by
    rw [middleAfter, valueAt_succ]
    ring
  unfold Decimal.Interval.point Decimal.Interval.around
  dsimp only
  rw [significand_eq, scale_eq, hn, hquarter, hmiddle, valueAt]
  by_cases hnarrow : significandAt (n + 1) = implicitBit ∧ -1074 < scaleAt (n + 1)
  · -- The first number of a scale: below it the numbers stand twice as close.
    have hscale : scaleAt (n + 1) = scaleAt n + 1 := by
      unfold significandAt scaleAt implicitBit at *
      split_ifs at hnarrow <;> omega
    rw [if_pos (by simpa using hnarrow), hscale, zpow_add_one₀ two_ne_zero,
      Nat.cast_sub (by omega)]
    push_cast
    ring
  · have hscale : scaleAt (n + 1) = scaleAt n := by
      unfold significandAt scaleAt implicitBit at *
      split_ifs at hnarrow <;> omega
    rw [if_neg (by simpa using hnarrow), hscale, Nat.cast_sub (by omega)]
    push_cast
    ring

theorem closed_around (x : Binary64) :
    (Decimal.Interval.around x).closed = decide (x.magnitude % 2 = 0) := by
  have hparity : significandAt x.magnitude % 2 = x.magnitude % 2 := by
    unfold significandAt implicitBit
    split_ifs <;> omega
  unfold Decimal.Interval.around
  dsimp only
  rw [significand_eq, hparity]

end Binary64

namespace Decimal.Interval

open Binary64

variable {x y : Binary64} {v : ℚ}

theorem Holds.between (hx : (around x).Holds v) {n : Nat} (hn : x.magnitude = n + 1) :
    middleAfter n ≤ v ∧ v ≤ middleAfter x.magnitude ∧
      (x.magnitude % 2 = 1 → middleAfter n < v ∧ v < middleAfter x.magnitude) := by
  unfold Holds at hx
  rw [closed_around, point_high_around, point_low_around hn] at hx
  by_cases heven : x.magnitude % 2 = 0
  · rw [if_pos (by simpa using heven)] at hx
    exact ⟨hx.1, hx.2, by omega⟩
  · rw [if_neg (by simpa using heven)] at hx
    exact ⟨hx.1.le, hx.2.le, fun _ => hx⟩

private theorem not_magnitude_lt (hx : (around x).Holds v) (hy : (around y).Holds v)
    (hzero : 0 < x.magnitude) : ¬x.magnitude < y.magnitude := by
  intro hlt
  obtain ⟨m, hm⟩ := Nat.exists_eq_succ_of_ne_zero hzero.ne'
  obtain ⟨n, hn⟩ := Nat.exists_eq_succ_of_ne_zero (show y.magnitude ≠ 0 by omega)
  obtain ⟨-, hxhigh, hxodd⟩ := hx.between hm
  obtain ⟨hylow, -, hyodd⟩ := hy.between hn
  rcases Nat.lt_or_ge x.magnitude n with hgap | hnext
  · have hmiddle := middleAfter_strictMono hgap
    linarith
  · -- Of two neighbours one is odd, and its interval leaves out the middle between them.
    obtain rfl : x.magnitude = n := by omega
    rcases Nat.mod_two_eq_zero_or_one x.magnitude with heven | hodd
    · have := (hyodd (by omega)).1
      linarith
    · have := (hxodd hodd).2
      linarith

/-- No number is in the intervals of two different magnitudes. -/
theorem Holds.magnitude_eq (hx : (around x).Holds v) (hy : (around y).Holds v)
    (hxzero : 0 < x.magnitude) (hyzero : 0 < y.magnitude) : x.magnitude = y.magnitude :=
  Nat.le_antisymm (Nat.not_lt.mp (not_magnitude_lt hy hx hyzero))
    (Nat.not_lt.mp (not_magnitude_lt hx hy hxzero))

end Decimal.Interval

namespace Decimal

open Binary64

variable {x y : Binary64} {tie : Tie}

/-- The shortest decimal of a number rounds to it. -/
theorem holds_shortest (hzero : x.isZero = false) (hfinite : x.isFinite = true) :
    (Interval.around x).Holds (shortest tie x).value := by
  have hmagnitude : 0 < x.magnitude ∧ x.magnitude < infiniteMagnitude := by
    simp only [isZero, isFinite, decide_eq_false_iff_not, decide_eq_true_eq] at hzero hfinite
    omega
  obtain ⟨hpositive, hfinite⟩ := hmagnitude
  have hsignificand : 0 < x.significand ∧ x.significand < 2 ^ 53 := by
    rw [significand_eq]
    unfold significandAt implicitBit
    split_ifs <;> omega
  have hscale : -1074 ≤ x.scale ∧ x.scale ≤ 971 := by
    rw [scale_eq]
    unfold scaleAt implicitBit
    unfold infiniteMagnitude implicitBit at hfinite
    omega
  have hlog : (4 * x.significand).log2 < 55 := by
    rw [Nat.log2_lt (by omega)]
    omega
  refine Interval.holds_search ?_ ?_ ?_
  · unfold Interval.around
    dsimp only
    split_ifs <;> omega
  · unfold Interval.around
    dsimp only
    omega
  · unfold Interval.around
    dsimp only
    exact ten_zpow_le (by omega) (by omega)

theorem shortest_value_pos (hzero : x.isZero = false) (hfinite : x.isFinite = true) :
    0 < (shortest tie x).value := by
  have hlow : 0 < (Interval.around x).low := by
    have hsignificand : 0 < x.significand := by
      simp only [isZero, decide_eq_false_iff_not] at hzero
      rw [significand_eq]
      unfold significandAt implicitBit
      split_ifs <;> omega
    unfold Interval.around
    dsimp only
    split_ifs <;> omega
  have hpoint : 0 < (Interval.around x).point (Interval.around x).low := by
    unfold Interval.point
    positivity
  have hholds : (Interval.around x).Holds (shortest tie x).value := holds_shortest hzero hfinite
  unfold Interval.Holds at hholds
  split_ifs at hholds
  · exact hpoint.trans_le hholds.1
  · exact hpoint.trans hholds.1

/-- The shortest decimals of different magnitudes are different numbers. -/
theorem magnitude_eq_of_value_shortest {tie' : Tie} (hx : x.isZero = false) (hy : y.isZero = false)
    (hxfinite : x.isFinite = true) (hyfinite : y.isFinite = true)
    (h : (shortest tie x).value = (shortest tie' y).value) : x.magnitude = y.magnitude := by
  have hxholds : (Interval.around x).Holds (shortest tie x).value := holds_shortest hx hxfinite
  have hyholds : (Interval.around y).Holds (shortest tie' y).value := holds_shortest hy hyfinite
  rw [h] at hxholds
  refine hxholds.magnitude_eq hyholds ?_ ?_
  · simpa [isZero, Nat.pos_iff_ne_zero] using hx
  · simpa [isZero, Nat.pos_iff_ne_zero] using hy

end Decimal
end RelMap
