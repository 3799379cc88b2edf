import Mathlib.Tactic.Ring
import RelMap.Numeric.Binary64

/-! Integers as floating-point numbers. Up to a magnitude of 53 bits they keep their order. -/
namespace RelMap.Binary64

section OfMagnitude

variable {negative : Bool} {m : Nat} (hm : m < signBit)
include hm

theorem toNat_bits_ofMagnitude :
    (ofMagnitude negative m).bits.toNat = if negative then signBit + m else m := by
  unfold signBit at hm
  cases negative <;> simp [ofMagnitude, signBit] <;> omega

theorem magnitude_ofMagnitude : (ofMagnitude negative m).magnitude = m := by
  rw [magnitude, toNat_bits_ofMagnitude hm]
  split_ifs
  · rw [Nat.add_mod_left, Nat.mod_eq_of_lt hm]
  · exact Nat.mod_eq_of_lt hm

theorem rank_ofMagnitude :
    (ofMagnitude negative m).rank = if negative then -(m : Int) else m := by
  have hsign : (ofMagnitude negative m).isNegative = negative := by
    rw [isNegative, toNat_bits_ofMagnitude hm]
    cases negative <;> simp [hm]
  rw [rank, hsign, magnitude_ofMagnitude hm]

end OfMagnitude

/-- The sign and the magnitude are all there is to a number. -/
theorem eq_of_magnitude {x y : Binary64} (hsign : x.isNegative = y.isNegative)
    (hmagnitude : x.magnitude = y.magnitude) : x = y := by
  have hx : x.bits.toNat < 2 ^ 64 := x.bits.toNat_lt
  have hy : y.bits.toNat < 2 ^ 64 := y.bits.toNat_lt
  have hiff : signBit ≤ x.bits.toNat ↔ signBit ≤ y.bits.toNat := by
    simpa [isNegative] using hsign
  have hbits : x.bits.toNat = y.bits.toNat := by
    unfold magnitude signBit at hmagnitude
    unfold signBit at hiff
    omega
  rw [Binary64.mk.injEq]
  exact UInt64.toNat_inj.mp hbits

theorem isFinite_of_not {x : Binary64} (hnan : x.isNaN = false) (hinfinite : x.isInfinite = false) :
    x.isFinite = true := by
  simp only [isNaN, isInfinite, isFinite, decide_eq_false_iff_not, decide_eq_true_eq] at *
  omega

theorem isNaN_of_isFinite {x : Binary64} (hx : x.isFinite = true) : x.isNaN = false := by
  simp only [isNaN, isFinite, decide_eq_false_iff_not, decide_eq_true_eq] at *
  omega

theorem isInfinite_of_isFinite {x : Binary64} (hx : x.isFinite = true) : x.isInfinite = false := by
  simp only [isInfinite, isFinite, decide_eq_false_iff_not, decide_eq_true_eq] at *
  omega

/-- The factor that brings an integer of at most 53 bits to exactly 53 bits. -/
theorem normalized {m : Nat} (hzero : m ≠ 0) (hm : m < 2 ^ 53) :
    m.log2 ≤ 52 ∧ implicitBit ≤ m * 2 ^ (52 - m.log2) ∧
      m * 2 ^ (52 - m.log2) < 2 * implicitBit := by
  have hlog : m.log2 ≤ 52 := by
    have := (Nat.log2_lt hzero).mpr hm
    omega
  refine ⟨hlog, ?_, ?_⟩
  · calc implicitBit = 2 ^ m.log2 * 2 ^ (52 - m.log2) := by
          rw [← Nat.pow_add, Nat.add_sub_cancel' hlog]
          rfl
      _ ≤ m * 2 ^ (52 - m.log2) := Nat.mul_le_mul_right _ (Nat.log2_self_le hzero)
  · calc m * 2 ^ (52 - m.log2) < 2 ^ (m.log2 + 1) * 2 ^ (52 - m.log2) :=
          Nat.mul_lt_mul_of_pos_right Nat.lt_log2_self (Nat.two_pow_pos _)
      _ = 2 ^ 53 := by
          rw [← Nat.pow_add]
          congr 1
          omega
      _ = 2 * implicitBit := rfl

/-- The magnitude of an integer of at most 53 bits. -/
def integerMagnitude (m : Nat) : Nat :=
  if m = 0 then 0 else (m.log2 + 1022) * implicitBit + m * 2 ^ (52 - m.log2)

theorem integerMagnitude_lt {m : Nat} (hm : m < 2 ^ 53) : integerMagnitude m < 1076 * implicitBit := by
  unfold integerMagnitude
  split_ifs with hzero
  · decide
  · obtain ⟨hlog, -, hhigh⟩ := normalized hzero hm
    calc (m.log2 + 1022) * implicitBit + m * 2 ^ (52 - m.log2)
        < (m.log2 + 1022) * implicitBit + 2 * implicitBit := Nat.add_lt_add_left hhigh _
      _ = (m.log2 + 1024) * implicitBit := by ring
      _ ≤ 1076 * implicitBit := Nat.mul_le_mul_right _ (by omega)

theorem integerMagnitude_strictMono {m n : Nat} (hmn : m < n) (hn : n < 2 ^ 53) :
    integerMagnitude m < integerMagnitude n := by
  have hnzero : n ≠ 0 := by omega
  obtain ⟨-, hlow, -⟩ := normalized hnzero hn
  unfold integerMagnitude
  rw [if_neg hnzero]
  split_ifs with hmzero
  · have : 0 < implicitBit := by decide
    omega
  · obtain ⟨-, -, hhigh⟩ := normalized hmzero (hmn.trans hn)
    have hle : m.log2 ≤ n.log2 :=
      (Nat.le_log2 hnzero).mpr ((Nat.log2_self_le hmzero).trans hmn.le)
    rcases Nat.lt_or_eq_of_le hle with hlt | heq
    · calc (m.log2 + 1022) * implicitBit + m * 2 ^ (52 - m.log2)
          < (m.log2 + 1022) * implicitBit + 2 * implicitBit := Nat.add_lt_add_left hhigh _
        _ = (m.log2 + 1 + 1022) * implicitBit + implicitBit := by ring
        _ ≤ (n.log2 + 1022) * implicitBit + n * 2 ^ (52 - n.log2) :=
          Nat.add_le_add (Nat.mul_le_mul_right _ (by omega)) hlow
    · rw [heq]
      exact Nat.add_lt_add_left (Nat.mul_lt_mul_of_pos_right hmn (Nat.two_pow_pos _)) _

theorem divNearest_one (m : Nat) : divNearest m 1 = m := by
  simp [divNearest, Nat.mod_one]

theorem ofRatio_one {negative : Bool} {m : Nat} (hm : m < 2 ^ 53) :
    ofRatio negative m 1 = ofMagnitude negative (integerMagnitude m) := by
  have hfinite := integerMagnitude_lt hm
  unfold ofRatio
  unfold integerMagnitude at hfinite ⊢
  split_ifs at hfinite ⊢ with hzero
  · rfl
  · obtain ⟨hlog, hlow, -⟩ := normalized hzero hm
    have hone : Nat.log2 1 = 0 := by decide
    have hguess : (m.log2 : Int) - (Nat.log2 1 : Nat) - 52 = -((52 - m.log2 : Nat) : Int) := by
      omega
    have hexponent : (-((52 - m.log2 : Nat) : Int) + 1074).toNat = m.log2 + 1022 := by omega
    dsimp only
    rw [hguess]
    generalize 52 - m.log2 = k at *
    have hneg : (-(k : Int)).toNat = 0 := by omega
    have hpos : (-(-(k : Int))).toNat = k := by omega
    have hscale : max (-1074) (-(k : Int)) = -(k : Int) := by omega
    have hunits : m * Nat.pow 2 k = m * 2 ^ k := rfl
    have hwhole : Nat.pow 2 0 = 1 := rfl
    have hnormal : ¬m * 2 ^ k < implicitBit := by omega
    simp only [hneg, hpos, hunits, hwhole, mul_one, if_neg hnormal, hscale, hexponent,
      divNearest_one]
    rw [min_eq_right]
    unfold infiniteMagnitude
    omega

/-- Integers of at most 53 bits are floating-point numbers themselves. -/
def IsExact (n : Int) : Prop := n.natAbs < 2 ^ 53

instance (n : Int) : Decidable (IsExact n) := inferInstanceAs (Decidable (_ < _))

section Exact

variable {m n : Int} (hn : IsExact n)
include hn

theorem integerMagnitude_lt_signBit : integerMagnitude n.natAbs < signBit :=
  (integerMagnitude_lt hn).trans (by decide)

theorem rank_ofInt : (ofInt n).rank =
    if n < 0 then -(integerMagnitude n.natAbs : Int) else integerMagnitude n.natAbs := by
  rw [ofInt, ofRatio_one hn, rank_ofMagnitude (integerMagnitude_lt_signBit hn)]
  simp

theorem isNaN_ofInt : (ofInt n).isNaN = false := by
  have hfinite := integerMagnitude_lt hn
  rw [isNaN, ofInt, ofRatio_one hn, magnitude_ofMagnitude (integerMagnitude_lt_signBit hn)]
  unfold infiniteMagnitude
  simp only [decide_eq_false_iff_not]
  omega

theorem rank_ofInt_strictMono (hm : IsExact m) (hmn : m < n) :
    (ofInt m).rank < (ofInt n).rank := by
  have hzero : integerMagnitude 0 = 0 := rfl
  have hmono := @integerMagnitude_strictMono
  rw [rank_ofInt hm, rank_ofInt hn]
  split_ifs with hmneg hnneg hnneg
  · have := hmono (show n.natAbs < m.natAbs by omega) hm
    omega
  · have := hmono (show 0 < m.natAbs by omega) hm
    omega
  · omega
  · have := hmono (show m.natAbs < n.natAbs by omega) hn
    omega

theorem compare_rank_ofInt (hm : IsExact m) :
    compare (ofInt m).rank (ofInt n).rank = compare m n := by
  rcases lt_trichotomy m n with hlt | rfl | hgt
  · rw [compare_lt_iff_lt.mpr hlt, compare_lt_iff_lt.mpr (rank_ofInt_strictMono hn hm hlt)]
  · rw [compare_eq_iff_eq.mpr rfl, compare_eq_iff_eq.mpr rfl]
  · rw [compare_gt_iff_gt.mpr hgt, compare_gt_iff_gt.mpr (rank_ofInt_strictMono hm hn hgt)]

end Exact

theorem compare?_of_numbers {x y : Binary64} (hx : x.isNaN = false) (hy : y.isNaN = false) :
    x.compare? y = some (compare x.rank y.rank) := by
  simp [compare?, hx, hy]

end RelMap.Binary64
