import Mathlib.Data.List.Forall2
import RelMap.Proofs.Outcome

/-! Lists, and values that may be missing, that are related element by element. -/
namespace RelMap

variable {α β : Type} {R : α → β → Prop} {l : List α} {m : List β}

theorem exists_right_of_forall₂ (h : List.Forall₂ R l m) {a : α} (ha : a ∈ l) :
    ∃ b ∈ m, R a b := by
  induction h with
  | nil => simp at ha
  | cons hab _ ih =>
    rcases List.mem_cons.mp ha with rfl | ha
    · exact ⟨_, List.mem_cons_self, hab⟩
    · obtain ⟨b, hb, hr⟩ := ih ha
      exact ⟨b, List.mem_cons_of_mem _ hb, hr⟩

theorem exists_left_of_forall₂ (h : List.Forall₂ R l m) {b : β} (hb : b ∈ m) :
    ∃ a ∈ l, R a b :=
  exists_right_of_forall₂ (R := flip R) h.flip hb

theorem map_eq_of_forall₂ {γ : Type} {f : α → γ} {g : β → γ} (h : List.Forall₂ R l m)
    (hfg : ∀ a ∈ l, ∀ b, R a b → f a = g b) : l.map f = m.map g := by
  induction h with
  | nil => rfl
  | cons hab _ ih =>
    rw [List.map_cons, List.map_cons, hfg _ List.mem_cons_self _ hab,
      ih fun a ha => hfg a (List.mem_cons_of_mem _ ha)]

theorem mapM_eq_of_forall₂ {ε γ : Type} {f : α → Except ε γ} {g : β → Except ε γ}
    (h : List.Forall₂ R l m) (hfg : ∀ a ∈ l, ∀ b, R a b → f a = g b) : l.mapM f = m.mapM g := by
  have hmap := map_eq_of_forall₂ h hfg
  calc l.mapM f = (l.map f).mapM id := by rw [List.mapM_map]; rfl
    _ = (m.map g).mapM id := by rw [hmap]
    _ = m.mapM g := by rw [List.mapM_map]; rfl

theorem forall₂_of_mapM_eq_ok {ε : Type} {f : α → Except ε β} (h : l.mapM f = .ok m) :
    List.Forall₂ (fun a b => f a = .ok b) l m := by
  induction l generalizing m with
  | nil =>
    obtain rfl : [] = m := by simpa [pure_eq_ok] using h
    exact List.Forall₂.nil
  | cons a l ih =>
    rw [List.mapM_cons, bind_eq_ok] at h
    obtain ⟨b, hb, h⟩ := h
    obtain ⟨bs, hbs, h⟩ := bind_eq_ok.mp h
    obtain rfl := pure_eq_ok.mp h
    exact List.Forall₂.cons hb (ih hbs)

theorem exists_left_of_rel_some {x : Option α} {b : β} (h : Option.Rel R x (some b)) :
    ∃ a, x = some a ∧ R a b := by
  cases h with
  | some h => exact ⟨_, rfl, h⟩

theorem exists_right_of_rel_some {a : α} {y : Option β} (h : Option.Rel R (some a) y) :
    ∃ b, y = some b ∧ R a b := by
  cases h with
  | some h => exact ⟨_, rfl, h⟩

theorem eq_none_of_rel_none {x : Option α} (h : Option.Rel R x (none : Option β)) : x = none := by
  cases h
  rfl

theorem rel_imp {S : α → β → Prop} {x : Option α} {y : Option β} (h : Option.Rel R x y)
    (hRS : ∀ a b, R a b → S a b) : Option.Rel S x y := by
  cases h with
  | none => exact .none
  | some h => exact .some (hRS _ _ h)

theorem rel_map_left {γ : Type} {S : γ → β → Prop} {f : α → γ} {x : Option α} {y : Option β}
    (h : Option.Rel R x y) (hf : ∀ a b, x = some a → R a b → S (f a) b) :
    Option.Rel S (x.map f) y := by
  cases h with
  | none => exact .none
  | some h => exact .some (hf _ _ rfl h)

theorem rel_getD {x : Option α} {y : Option β} {a : α} {b : β} (h : Option.Rel R x y)
    (hab : R a b) : R (x.getD a) (y.getD b) := by
  cases h with
  | none => exact hab
  | some h => exact h

end RelMap
