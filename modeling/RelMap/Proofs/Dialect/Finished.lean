import Mathlib.Data.List.Basic
import RelMap.Proofs.Dialect.Template

/-! Finished statements, part by part. Where no part leaves a quote open, the parts are finished
one after the other, and the placeholders of each are numbered from those before it on. -/
namespace RelMap

open Placeholder (Closed)

/-- A finished text behind `count` placeholders, all of whose quotes are closed. -/
def Dialect.finalizeFrom (d : Dialect) (count : Nat) (sql : String) : String :=
  match d.placeholderStyle with
  | .question => sql
  | .dollar => String.ofList (Placeholder.numberFrom none count sql.toList)

namespace Template

/-- A template in a finished statement behind `count` placeholders. -/
def finished (d : Dialect) (count : Nat) (t : Template) : String :=
  match d.placeholderStyle with
  | .question => t.text
  | .dollar => String.ofList (t.numbered count)

variable {d : Dialect}

theorem numbered_append (count : Nat) (t u : Template) :
    (t ++ u).numbered count = t.numbered count ++ u.numbered (count + t.values.length) := by
  induction t generalizing count with
  | nil => rfl
  | cons mark t ih =>
    cases mark with
    | char c => exact congrArg (c :: ·) (ih count)
    | slot value =>
      have hlength : (values (.slot value :: t)).length = 1 + (values t).length :=
        Nat.add_comm (values t).length 1
      have hrest := ih (count + 1)
      rw [Nat.add_assoc, ← hlength] at hrest
      have hmarked := congrArg (fun tail => '$' :: (toString (count + 1)).toList ++ tail) hrest
      exact hmarked.trans (List.append_assoc _ _ _).symm

theorem finished_append (count : Nat) (t u : Template) :
    (t ++ u).finished d count = t.finished d count ++ u.finished d (count + t.values.length) := by
  unfold finished
  cases d.placeholderStyle with
  | question => exact text_append t u
  | dollar => rw [numbered_append, String.ofList_append]

@[simp] theorem finished_ofText (count : Nat) (text : String) :
    (ofText text).finished d count = text := by
  have hnumbered : ∀ chars : List Char, numbered count (chars.map .char) = chars := by
    intro chars
    induction chars with
    | nil => rfl
    | cons c rest ih => exact congrArg (c :: ·) ih
  unfold finished
  cases d.placeholderStyle with
  | question => exact text_ofText text
  | dollar => rw [ofText, hnumbered, String.ofList_toList]

@[simp] theorem finished_slot (count : Nat) (value : Value) :
    finished d count [.slot value] = d.placeholder (count + 1) := by
  unfold finished Dialect.placeholder
  cases d.placeholderStyle with
  | question => rfl
  | dollar =>
    apply String.toList_inj.mp
    simp [numbered]

@[simp] theorem finished_parenthesized (count : Nat) (t : Template) :
    (parenthesized t).finished d count = Sql.parenthesized (t.finished d count) := by
  rw [parenthesized, finished_append, finished_append, finished_ofText, finished_ofText,
    values_ofText, List.length_nil, Nat.add_zero]
  rfl

/-- Parts with as many values each are numbered in steps of this size. -/
theorem finished_joinWith (separator : String) {parts : List Template} {width : Nat}
    (hwidth : ∀ part ∈ parts, (values part).length = width) (count : Nat) :
    (joinWith separator parts).finished d count =
      Text.joinWith separator (parts.mapIdx fun k part => finished d (count + k * width) part) := by
  fun_induction joinWith separator parts generalizing count with
  | case1 =>
    unfold finished
    cases d.placeholderStyle <;> rfl
  | case2 part => simp [Text.joinWith]
  | case3 part rest hne ih =>
    obtain ⟨hpart, hrest⟩ := List.forall_mem_cons.mp hwidth
    obtain ⟨next, more, rfl⟩ := List.exists_cons_of_ne_nil hne
    rw [finished_append, finished_append, finished_ofText, values_append, values_ofText,
      List.append_nil, hpart, ih hrest]
    have hstep : ∀ k, count + width + k * width = count + (k + 1) * width := by
      intro k
      ring
    simp only [List.mapIdx_cons, Text.joinWith, Nat.zero_mul, Nat.add_zero, hstep, Nat.zero_add]

/-- The values of a list are numbered one by one. -/
theorem finished_listed (count : Nat) (values : List Value) :
    (listed values).finished d count = Text.joinWith ", "
      ((List.range values.length).map fun k => d.placeholder (count + k + 1)) := by
  have hwidth : ∀ part ∈ values.map fun value => ([.slot value] : Template),
      (Template.values part).length = 1 := by
    intro part hpart
    obtain ⟨value, -, rfl⟩ := List.mem_map.mp hpart
    rfl
  rw [listed, finished_joinWith ", " hwidth]
  congr 1
  refine List.ext_getElem (by simp) fun k hk hk' => ?_
  simp

/-- A text behind a sound template is finished by itself. -/
theorem Sound.finalizeFrom_append {t : Template} (h : t.Sound) (count : Nat) (rest : String) :
    d.finalizeFrom count (t.text ++ rest) =
      t.finished d count ++ d.finalizeFrom (count + t.values.length) rest := by
  unfold Dialect.finalizeFrom finished
  cases d.placeholderStyle with
  | question => rfl
  | dollar =>
    dsimp only
    rw [String.toList_append, toList_text, numberFrom_append count rest.toList h.flags_eq,
      h.openAfter_eq, String.ofList_append]

end Template

namespace Dialect

variable {d : Dialect}

theorem finalize_eq_finalizeFrom (sql : String) : d.finalize sql = d.finalizeFrom 0 sql := rfl

/-- Nothing changes in a text without placeholders. -/
theorem finalizeFrom_append {text : String} (h : Closed text) (count : Nat) (rest : String) :
    d.finalizeFrom count (text ++ rest) = text ++ d.finalizeFrom count rest := by
  have htemplate := (Template.sound_ofText h).finalizeFrom_append (d := d) count rest
  simpa using htemplate

theorem finalizeFrom_of_closed {text : String} (h : Closed text) (count : Nat) :
    d.finalizeFrom count text = text := by
  have hnothing : d.finalizeFrom count "" = "" := by
    unfold finalizeFrom
    cases d.placeholderStyle <;> rfl
  have happend := finalizeFrom_append (d := d) h count ""
  rwa [hnothing, String.append_empty] at happend

/-- The values between two texts without placeholders are the only ones that are numbered. -/
theorem finalize_between {before rest : String} {t : Template} (hbefore : Closed before)
    (ht : t.Sound) (hrest : Closed rest) :
    d.finalize (before ++ t.text ++ rest) = before ++ t.finished d 0 ++ rest := by
  rw [finalize_eq_finalizeFrom, String.append_assoc, finalizeFrom_append hbefore,
    ht.finalizeFrom_append, finalizeFrom_of_closed hrest, String.append_assoc]

end Dialect
end RelMap
