import Mathlib.Data.List.Basic
import Mathlib.Data.List.Induction

/-! The distinct elements of a list in the order in which they first appear. -/
namespace RelMap

variable {α β : Type} [BEq α] [LawfulBEq α] [BEq β] [LawfulBEq β]

theorem eraseDups_concat (l : List α) (a : α) :
    (l ++ [a]).eraseDups = if a ∈ l then l.eraseDups else l.eraseDups ++ [a] := by
  rw [List.eraseDups_append]
  split_ifs with h <;> simp [List.removeAll, List.eraseDups_cons, h]

theorem nodup_eraseDups (l : List α) : l.eraseDups.Nodup := by
  induction l using List.reverseRecOn with
  | nil => simp
  | append_singleton l a ih =>
    rw [eraseDups_concat]
    split_ifs with h
    · exact ih
    · refine List.nodup_append.mpr ⟨ih, List.pairwise_singleton _ a, fun b hb c hc he => ?_⟩
      rw [he, List.mem_singleton.mp hc] at hb
      exact h (List.mem_eraseDups.mp hb)

theorem eraseDups_of_nodup {l : List α} (h : l.Nodup) : l.eraseDups = l := by
  induction l using List.reverseRecOn with
  | nil => rfl
  | append_singleton l a ih =>
    obtain ⟨hl, -, hdisjoint⟩ := List.nodup_append.mp h
    have ha : a ∉ l := fun ha => hdisjoint a ha a List.mem_cons_self rfl
    rw [eraseDups_concat, if_neg ha, ih hl]

theorem filter_eraseDups (p : α → Bool) (l : List α) :
    l.eraseDups.filter p = (l.filter p).eraseDups := by
  induction l using List.reverseRecOn with
  | nil => rfl
  | append_singleton l a ih =>
    rw [eraseDups_concat, List.filter_append]
    cases hp : p a with
    | false =>
      split_ifs <;> simp [hp, ih]
    | true =>
      rw [List.filter_cons_of_pos hp, List.filter_nil, eraseDups_concat]
      by_cases ha : a ∈ l
      · simp [ha, hp, ih]
      · simp [ha, hp, ih]

theorem map_eraseDups {f : α → β} {l : List α}
    (hf : ∀ a ∈ l, ∀ b ∈ l, f a = f b → a = b) :
    l.eraseDups.map f = (l.map f).eraseDups := by
  induction l using List.reverseRecOn with
  | nil => rfl
  | append_singleton l a ih =>
    have hl := ih fun b hb c hc => hf b (by simp [hb]) c (by simp [hc])
    have hmem : f a ∈ l.map f ↔ a ∈ l := by
      constructor
      · intro h
        obtain ⟨b, hb, he⟩ := List.mem_map.mp h
        exact hf b (by simp [hb]) a (by simp) he ▸ hb
      · exact List.mem_map_of_mem
    rw [List.map_append, List.map_singleton, eraseDups_concat, eraseDups_concat]
    simp only [hmem]
    split_ifs <;> simp [hl]

theorem eraseDups_append_congr {l l' m m' : List α} (hl : l.eraseDups = l'.eraseDups)
    (hm : m.eraseDups = m'.eraseDups) : (l ++ m).eraseDups = (l' ++ m').eraseDups := by
  have hmem : ∀ a, a ∈ l ↔ a ∈ l' := by
    intro a
    rw [← List.mem_eraseDups, hl, List.mem_eraseDups]
  have hremove : m.removeAll l = m.filter fun a => decide (a ∉ l') := by
    refine List.filter_congr fun a _ => ?_
    simp [hmem a]
  have hremove' : m'.removeAll l' = m'.filter fun a => decide (a ∉ l') :=
    List.filter_congr fun a _ => by simp
  rw [List.eraseDups_append, List.eraseDups_append, hl, hremove, hremove', ← filter_eraseDups,
    ← filter_eraseDups, hm]

theorem eraseDups_append_of_subset {l m : List α} (h : ∀ a ∈ m, a ∈ l) :
    (l ++ m).eraseDups = l.eraseDups := by
  have hnil : m.removeAll l = [] := by
    refine List.filter_eq_nil_iff.mpr fun a ha => ?_
    simp [h a ha]
  rw [List.eraseDups_append, hnil, List.eraseDups_nil, List.append_nil]

theorem eraseDups_flatMap_congr {ι : Type} {f g : ι → List α} {l : List ι}
    (h : ∀ x ∈ l, (f x).eraseDups = (g x).eraseDups) :
    (l.flatMap f).eraseDups = (l.flatMap g).eraseDups := by
  induction l with
  | nil => rfl
  | cons x l ih =>
    rw [List.flatMap_cons, List.flatMap_cons]
    exact eraseDups_append_congr (h x List.mem_cons_self)
      (ih fun y hy => h y (List.mem_cons_of_mem x hy))

theorem eraseDups_flatMap_const {ι : Type} {l : List ι} (hl : l ≠ []) (m : List α) :
    (l.flatMap fun _ => m).eraseDups = m.eraseDups := by
  obtain ⟨x, l, rfl⟩ := List.exists_cons_of_ne_nil hl
  rw [List.flatMap_cons]
  refine eraseDups_append_of_subset fun a ha => ?_
  obtain ⟨-, -, ha⟩ := List.mem_flatMap.mp ha
  exact ha

theorem eraseDups_filterMap_const {ι : Type} {l : List ι} (hl : l ≠ []) (a : Option α) :
    (l.filterMap fun _ => a).eraseDups = a.toList := by
  rw [List.filterMap_eq_flatMap_toList, eraseDups_flatMap_const hl]
  cases a <;> simp [List.eraseDups_cons]

/-- Lists of which each shows nothing, or all of `m` in this order, together show no more. -/
theorem eraseDups_flatMap_of_each {ι : Type} {f : ι → List α} {l : List ι} {m : List α}
    (hm : m.Nodup) (h : ∀ x ∈ l, (f x).eraseDups = [] ∨ (f x).eraseDups = m) :
    (l.flatMap f).eraseDups = [] ∨ (l.flatMap f).eraseDups = m := by
  have hmm := eraseDups_of_nodup hm
  induction l with
  | nil => exact Or.inl List.eraseDups_nil
  | cons x l ih =>
    rw [List.flatMap_cons]
    rcases h x List.mem_cons_self with hx | hx <;>
      rcases ih fun y hy => h y (List.mem_cons_of_mem x hy) with hl | hl
    · left
      rw [eraseDups_append_congr (hx.trans List.eraseDups_nil.symm)
        (hl.trans List.eraseDups_nil.symm)]
      rfl
    · right
      rw [eraseDups_append_congr (hx.trans List.eraseDups_nil.symm) (hl.trans hmm.symm)]
      exact hmm
    · right
      rw [eraseDups_append_congr (hx.trans hmm.symm) (hl.trans List.eraseDups_nil.symm),
        List.append_nil, hmm]
    · right
      rw [eraseDups_append_congr (hx.trans hmm.symm) (hl.trans hmm.symm),
        eraseDups_append_of_subset fun a ha => ha, hmm]

theorem head?_filterMap_ite {ι κ : Type} {p : ι → Prop} [DecidablePred p] {l : List ι} {a : ι}
    (ha : a ∈ l) (hp : p a) (b : κ) :
    (l.filterMap fun x => if p x then some b else none).head? = some b := by
  induction l with
  | nil => simp at ha
  | cons first rest ih =>
    rw [List.filterMap_cons]
    by_cases hfirst : p first
    · rw [if_pos hfirst]
      rfl
    · have hrest : a ∈ rest := (List.mem_cons.mp ha).resolve_left fun he => hfirst (he ▸ hp)
      rw [if_neg hfirst]
      exact ih hrest

end RelMap
