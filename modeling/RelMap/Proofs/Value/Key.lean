import RelMap.Proofs.Value.Text
import RelMap.Value.Key

/-! Keys of values. A kind with a key form of its own keeps the value in it; all others rest on
their text, which must be legible for that. -/
namespace RelMap.Value

/-- The kinds with a key form of their own. -/
def hasKeyForm : Value → Bool
  | .bool _ => true
  | .int _ => true
  | .float _ => true
  | .text _ => true
  | .bytes _ => true
  | .uuid _ => true
  | _ => false

/-- Values that their keys identify. -/
def Identified (a : Value) : Prop := a.hasKeyForm = true ∨ a.Legible

/-- Identified values of one column are the same if their keys are; `NULL` is the one without a
key. -/
theorem eq_of_key?_eq {a b : Value} (ha : a.Identified) (hb : b.Identified) (halike : Alike a b)
    (h : a.key? = b.key?) : a = b := by
  have hlegible : ∀ {c : Value}, c.Identified → c.hasKeyForm = false → c.Legible := by
    intro c hc hform
    rcases hc with hc | hc
    · rw [hform] at hc
      cases hc
    · exact hc
  -- Without a key form the keys are the texts, which are told even inside of lists.
  have htext : a.hasKeyForm = false → b.hasKeyForm = false → a.display = b.display → a = b :=
    fun haform hbform hdisplay =>
      (told_display (hlegible ha haform) (hlegible hb hbform) halike).eq hdisplay
  cases halike with
  | null b => cases b <;> first | rfl | cases h
  | orNull a => cases a <;> first | rfl | cases h
  | bool x y => cases h; rfl
  | int x y => cases h; rfl
  | float x y =>
    rw [float.injEq, Binary64.mk.injEq]
    exact Key.float.inj (Option.some.inj h)
  | text x y => cases h; rfl
  | bytes x y => cases h; rfl
  | uuid x y => cases h; rfl
  | _ => exact htext rfl rfl (Key.other.inj (Option.some.inj h))

end RelMap.Value
