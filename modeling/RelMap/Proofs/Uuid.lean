import Mathlib.Algebra.Group.Nat.Defs
import Mathlib.Data.List.Basic
import RelMap.Uuid

/-! The text of identifiers. Its digits, the most significant one first, are the bits again. -/
namespace RelMap.Uuid

/-- The number that hexadecimal digits stand for, whatever stands between them. -/
def digitsValue (text : List Char) : Nat := (text.filterMap hexDigit?).foldl (16 * · + ·) 0

theorem hexDigit?_digitChar : ∀ n < 16, hexDigit? (Nat.digitChar n) = some n := by decide

/-- One of the sixteen octets. -/
def octet (u : Uuid) (i : Nat) : Nat := u.bits.toNat / Nat.pow 256 (15 - i) % 256

theorem octets_eq (u : Uuid) : u.octets = (List.range 16).map fun i =>
    [Nat.digitChar (u.octet i / 16), Nat.digitChar (u.octet i % 16)] := rfl

theorem octet_lt (u : Uuid) (i : Nat) : u.octet i < 256 := Nat.mod_lt _ (by decide)

/-- The groups of a text, with nothing between them. -/
theorem parts_eq {α : Type} {l : List (List α)} (h : l.length = 16) :
    ((l.drop 0).take 4).flatten ++ (((l.drop 4).take 2).flatten ++ (((l.drop 6).take 2).flatten ++
      (((l.drop 8).take 2).flatten ++ ((l.drop 10).take 6).flatten))) = l.flatten := by
  have hjoin : ∀ m n, ((l.drop m).take n).flatten ++ (l.drop (m + n)).flatten =
      (l.drop m).flatten := by
    intro m n
    rw [← List.flatten_append, ← List.drop_drop, List.take_append_drop]
  have hlast : (l.drop 10).take 6 = l.drop 10 := by
    rw [List.take_of_length_le]
    rw [List.length_drop]
    omega
  rw [hlast, hjoin 8 2, hjoin 6 2, hjoin 4 2, hjoin 0 4, List.drop_zero]

theorem foldl_octets (u : Uuid) {count : Nat} (hcount : count ≤ 16) :
    (List.range count).foldl (fun n i => 16 * (16 * n + u.octet i / 16) + u.octet i % 16) 0 =
      u.bits.toNat / 256 ^ (16 - count) := by
  induction count with
  | zero =>
    have hbits : u.bits.toNat < 256 ^ 16 := u.bits.isLt
    exact (Nat.div_eq_of_lt hbits).symm
  | succ count ih =>
    rw [List.range_succ, List.foldl_append, ih (by omega), List.foldl_cons, List.foldl_nil]
    have hpower : 256 ^ (16 - count) = 256 ^ (15 - count) * 256 := by
      rw [← Nat.pow_succ]
      congr 1
      omega
    have hoctet : u.octet count = u.bits.toNat / 256 ^ (15 - count) % 256 := rfl
    rw [hpower, ← Nat.div_div_eq_div_mul, hoctet, show 16 - (count + 1) = 15 - count by omega]
    omega

/-- The digits of a text are those of the octets. -/
theorem filterMap_text (u : Uuid) :
    u.text.toList.filterMap hexDigit? = u.octets.flatten.filterMap hexDigit? := by
  have hdash : ∀ rest, ('-' :: rest).filterMap hexDigit? = rest.filterMap hexDigit? := by
    intro rest
    rw [List.filterMap_cons]
    rfl
  rw [← parts_eq (show u.octets.length = 16 by simp [octets])]
  unfold text
  simp only [String.toList_ofList, List.filterMap_append, List.append_assoc, List.cons_append, hdash]

theorem digitsValue_text (u : Uuid) : digitsValue u.text.toList = u.bits.toNat := by
  have hdigits : ∀ i, [Nat.digitChar (u.octet i / 16), Nat.digitChar (u.octet i % 16)].filterMap
      hexDigit? = [u.octet i / 16, u.octet i % 16] := by
    intro i
    have hlt := u.octet_lt i
    have hhigh := hexDigit?_digitChar (u.octet i / 16) (by omega)
    have hlow := hexDigit?_digitChar (u.octet i % 16) (by omega)
    simp [hhigh, hlow]
  have hall : u.octets.flatten.filterMap hexDigit? =
      (List.range 16).flatMap fun i => [u.octet i / 16, u.octet i % 16] := by
    rw [List.filterMap_flatten, octets_eq, List.map_map, ← List.flatMap_def]
    exact congrArg (List.flatMap · (List.range 16)) (funext hdigits)
  rw [digitsValue, filterMap_text, hall, List.foldl_flatMap]
  exact (foldl_octets u (Nat.le_refl 16)).trans (Nat.div_one _)

theorem text_inj {u v : Uuid} (h : u.text = v.text) : u = v := by
  have hbits : u.bits.toNat = v.bits.toNat := by
    rw [← digitsValue_text u, h, digitsValue_text v]
  rw [Uuid.mk.injEq]
  exact BitVec.eq_of_toNat_eq hbits

theorem mem_text {u : Uuid} {c : Char} (hc : c ∈ u.text.toList) :
    c.isDigit = true ∨ c.isLower = true ∨ c = '-' := by
  have hdigit : ∀ n < 16, (Nat.digitChar n).isDigit = true ∨ (Nat.digitChar n).isLower = true := by
    decide
  have hpart : ∀ start count, c ∈ ((u.octets.drop start).take count).flatten →
      c.isDigit = true ∨ c.isLower = true := by
    intro start count hmem
    obtain ⟨pair, hpair, hc⟩ := List.mem_flatten.mp hmem
    rw [octets_eq] at hpair
    obtain ⟨i, -, rfl⟩ := List.mem_map.mp (List.mem_of_mem_drop (List.mem_of_mem_take hpair))
    have hlt := u.octet_lt i
    rcases List.mem_pair.mp hc with rfl | rfl
    · exact hdigit _ (by omega)
    · exact hdigit _ (by omega)
  unfold text at hc
  simp only [String.toList_ofList, List.mem_append, List.mem_cons, List.append_assoc,
    List.cons_append] at hc
  rcases hc with hc | rfl | hc | rfl | hc | rfl | hc | rfl | hc
  all_goals first | exact .inr (.inr rfl) | exact (hpart _ _ hc).imp_right .inl

end RelMap.Uuid
