import Mathlib.Data.List.Basic
import RelMap.Join.Planner

/-! Splitting text at a separator and joining the parts again. A path of relations is told by
its segments and the other way round. -/
namespace RelMap

/-- A part of a split text has only characters of the text, and never the separator. -/
theorem mem_of_mem_splitOn {sep c : Char} {text word : List Char}
    (hw : word ∈ text.splitOn sep) (hc : c ∈ word) : c ≠ sep ∧ c ∈ text := by
  induction text generalizing word with
  | nil => simp_all
  | cons d text ih =>
    rw [List.splitOn_cons_eq_if_modifyHead] at hw
    split_ifs at hw with hd
    · rcases List.mem_cons.mp hw with rfl | hw
      · simp at hc
      · exact ⟨(ih hw hc).1, List.mem_cons_of_mem d (ih hw hc).2⟩
    · cases hs : text.splitOn sep with
      | nil => exact absurd hs (List.splitOn_ne_nil sep text)
      | cons first rest =>
        rw [hs, List.modifyHead_cons, List.mem_cons] at hw
        rcases hw with rfl | hw
        · rcases List.mem_cons.mp hc with rfl | hc
          · exact ⟨by simpa using hd, List.mem_cons_self⟩
          · have := ih (hs ▸ List.mem_cons_self) hc
            exact ⟨this.1, List.mem_cons_of_mem d this.2⟩
        · have := ih (hs ▸ List.mem_cons_of_mem first hw) hc
          exact ⟨this.1, List.mem_cons_of_mem d this.2⟩

theorem Text.toList_joinWith (separator : String) (parts : List String) :
    (Text.joinWith separator parts).toList =
      separator.toList.intercalate (parts.map String.toList) := by
  fun_induction Text.joinWith separator parts with
  | case1 => rfl
  | case2 part => simp
  | case3 part rest hne ih =>
    rw [String.toList_append, String.toList_append, ih, List.map_cons,
      List.intercalate_cons_of_ne_nil (by simpa using hne), List.append_assoc]

theorem Text.joinWith_concat (separator last : String) {parts : List String} (hne : parts ≠ []) :
    Text.joinWith separator (parts ++ [last]) =
      Text.joinWith separator parts ++ separator ++ last := by
  fun_induction Text.joinWith separator parts with
  | case1 => exact absurd rfl hne
  | case2 part => simp [Text.joinWith]
  | case3 part rest hrest ih =>
    obtain ⟨next, more, rfl⟩ := List.exists_cons_of_ne_nil hrest
    rw [List.cons_append, List.cons_append, Text.joinWith, ← List.cons_append, ih (by simp)]
    · simp only [String.append_assoc]
    · simp

namespace Planner

/-- The written form of a path of relations. -/
def dotted (relations : List String) : String := Text.joinWith "." relations

theorem dotted_segments (path : String) : dotted (segments path) = path := by
  apply String.toList_injective
  rw [dotted, Text.toList_joinWith, segments, List.map_map]
  simp

theorem segments_dotted {relations : List String} (hne : relations ≠ [])
    (hdot : ∀ r ∈ relations, '.' ∉ r.toList) : segments (dotted relations) = relations := by
  have hsplit : (dotted relations).toList.splitOn '.' = relations.map String.toList := by
    rw [dotted, Text.toList_joinWith]
    exact List.splitOn_intercalate '.' (by simpa using hdot) (by simpa using hne)
  rw [segments, hsplit, List.map_map]
  simp

theorem dot_not_mem_segments {path relation : String} (h : relation ∈ segments path) :
    '.' ∉ relation.toList := by
  intro hdot
  simp only [segments, List.mem_map] at h
  obtain ⟨word, hword, rfl⟩ := h
  exact (mem_of_mem_splitOn hword (by simpa using hdot)).1 rfl

theorem dotted_concat {relations : List String} (hne : relations ≠ []) (relation : String) :
    dotted (relations ++ [relation]) = dotted relations ++ "." ++ relation :=
  Text.joinWith_concat "." relation hne

/-- Paths are told apart by their written forms. -/
theorem dotted_inj {v w : List String} (hv : v ≠ []) (hw : w ≠ [])
    (hvd : ∀ r ∈ v, '.' ∉ r.toList) (hwd : ∀ r ∈ w, '.' ∉ r.toList)
    (h : dotted v = dotted w) : v = w := by
  rw [← segments_dotted hv hvd, h, segments_dotted hw hwd]

end Planner
end RelMap
