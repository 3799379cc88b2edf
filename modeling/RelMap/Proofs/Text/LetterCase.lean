import Mathlib.Tactic.SplitIfs
import RelMap.Text.LetterCase

/-! Lowercase forms. No form is empty, and a character before the small letters occurs in no form
but its own. -/
namespace RelMap.Text

/-- The code points that a run leads to are those of characters, and none is before `0x60`. -/
def CaseRun.Fits (run : CaseRun) : Prop :=
  0x60 ≤ run.first + run.shift ∧
    (run.last + run.shift < 0xd800 ∨
      0xe000 ≤ run.first + run.shift ∧ run.last + run.shift < 0x110000)

instance (run : CaseRun) : Decidable run.Fits := by
  unfold CaseRun.Fits
  infer_instance

theorem lowerRuns_fit : ∀ run ∈ lowerRuns, run.Fits := by decide +kernel

theorem toNat_ofNat_of_isValidChar {n : Nat} (h : n.isValidChar) : (Char.ofNat n).toNat = n := by
  rw [Char.ofNat, dif_pos h]
  rfl

theorem le_toNat_ofNat_of_shift? {run : CaseRun} {n : Nat} {shift : Int} (hfits : run.Fits)
    (h : run.shift? n = some shift) : 0x60 ≤ (Char.ofNat (n + shift).toNat).toNat := by
  unfold CaseRun.shift? at h
  split_ifs at h with hrange
  obtain rfl := Option.some.inj h
  simp only [Bool.and_eq_true, decide_eq_true_eq] at hrange
  obtain ⟨⟨hfirst, hlast⟩, -⟩ := hrange
  obtain ⟨hlow, hvalid⟩ := hfits
  have hchar : (n + run.shift).toNat.isValidChar := by
    unfold Nat.isValidChar
    omega
  rw [toNat_ofNat_of_isValidChar hchar]
  omega

/-- An ASCII character stays as it is or becomes a small letter. -/
theorem toLower_eq_or (c : Char) : c.toLower = c ∨ 0x60 ≤ c.toLower.toNat := by
  unfold Char.toLower
  split
  · next hupper =>
    right
    have hlow : 65 ≤ c.val.toNat := UInt32.le_iff_toNat_le.mp hupper.1
    have hhigh : c.val.toNat ≤ 90 := UInt32.le_iff_toNat_le.mp hupper.2
    have hshift : (c.val + ('a'.val - 'A'.val)).toNat = (c.val.toNat + 32) % 2 ^ 32 := rfl
    change 0x60 ≤ (c.val + ('a'.val - 'A'.val)).toNat
    omega
  · exact Or.inl rfl

theorem lowerChar_ne_nil (c : Char) : lowerChar c ≠ [] := by
  unfold lowerChar
  split_ifs
  · simp
  · simp
  · split <;> simp

/-- A character before the small letters is in the form of no other character. -/
theorem eq_of_mem_lowerChar {c d : Char} (hd : d.toNat < 0x60) (h : d ∈ lowerChar c) : c = d := by
  unfold lowerChar at h
  split_ifs at h with hascii hdotted
  · rw [List.mem_singleton.mp h] at hd ⊢
    rcases toLower_eq_or c with he | hle
    · exact he.symm
    · omega
  · simp only [List.mem_cons, List.not_mem_nil, or_false] at h
    rcases h with rfl | rfl <;> exact absurd hd (by decide)
  · split at h
    · next shift hshift =>
      obtain ⟨run, hrun, hs⟩ := List.exists_of_findSome?_eq_some hshift
      have := le_toNat_ofNat_of_shift? (lowerRuns_fit run hrun) hs
      rw [List.mem_singleton.mp h] at hd
      omega
    · exact (List.mem_singleton.mp h).symm

end RelMap.Text
