import Mathlib.Data.List.Basic
import RelMap.Error

/-! When steps that may end in an error succeed one after the other. -/
namespace RelMap

variable {ε α β : Type}

theorem bind_eq_ok {x : Except ε α} {f : α → Except ε β} {b : β} :
    x >>= f = .ok b ↔ ∃ a, x = .ok a ∧ f a = .ok b := by
  cases x <;> simp [bind, Except.bind]

theorem ok_bind (a : α) (f : α → Except ε β) : Except.ok a >>= f = f a := rfl

theorem throw_bind (e : ε) (f : α → Except ε β) : throw e >>= f = .error e := rfl

theorem pure_eq_ok {a b : α} : (pure a : Except ε α) = .ok b ↔ a = b :=
  Iff.of_eq (Except.ok.injEq a b)

theorem foldlM_concat_eq_ok {f : β → α → Except ε β} {l : List α} {a : α} {b c : β} :
    (l ++ [a]).foldlM f b = .ok c ↔ ∃ d, l.foldlM f b = .ok d ∧ f d a = .ok c := by
  rw [List.foldlM_append, bind_eq_ok]
  simp

/-- What a computed outcome says of the result. -/
theorem exists_ok_of_toOption {x : Except ε α} {f : α → β} {b : β}
    (h : (x.map f).toOption = some b) : ∃ a, x = .ok a ∧ f a = b := by
  cases x with
  | error e => cases h
  | ok a => exact ⟨a, rfl, Option.some.inj h⟩

theorem mapM_congr_of_mem {f g : α → Except ε β} {l : List α} (h : ∀ a ∈ l, f a = g a) :
    l.mapM f = l.mapM g := by
  induction l with
  | nil => rfl
  | cons a l ih =>
    rw [List.mapM_cons, List.mapM_cons, h a List.mem_cons_self,
      ih fun b hb => h b (List.mem_cons_of_mem a hb)]

theorem foldlM_congr_of_mem {f g : β → α → Except ε β} {l : List α} {b : β}
    (h : ∀ c, ∀ a ∈ l, f c a = g c a) : l.foldlM f b = l.foldlM g b := by
  induction l generalizing b with
  | nil => rfl
  | cons a l ih =>
    rw [List.foldlM_cons, List.foldlM_cons, h b a List.mem_cons_self]
    exact congrArg _ (funext fun c => ih fun d e he => h d e (List.mem_cons_of_mem a he))

theorem anyM_congr_of_mem {f g : α → Except ε Bool} {l : List α} (h : ∀ a ∈ l, f a = g a) :
    l.anyM f = l.anyM g := by
  induction l with
  | nil => rfl
  | cons a l ih =>
    rw [List.anyM_cons, List.anyM_cons, h a List.mem_cons_self,
      ih fun b hb => h b (List.mem_cons_of_mem a hb)]

theorem allM_congr_of_mem {f g : α → Except ε Bool} {l : List α} (h : ∀ a ∈ l, f a = g a) :
    l.allM f = l.allM g := by
  rw [List.allM_eq_not_anyM_not, List.allM_eq_not_anyM_not,
    anyM_congr_of_mem fun a ha => congrArg (Functor.map _) (h a ha)]

theorem anyM_append {f : α → Except ε Bool} (l m : List α) :
    (l ++ m).anyM f = l.anyM f >>= fun found => if found then pure true else m.anyM f := by
  induction l with
  | nil => rfl
  | cons a l ih =>
    rw [List.cons_append, List.anyM_cons, List.anyM_cons]
    cases hstep : f a with
    | error e => rfl
    | ok found =>
      cases found with
      | false => exact ih
      | true => rfl

theorem allM_append {f : α → Except ε Bool} (l m : List α) :
    (l ++ m).allM f = l.allM f >>= fun holds => if holds then m.allM f else pure false := by
  induction l with
  | nil => rfl
  | cons a l ih =>
    rw [List.cons_append, List.allM_cons, List.allM_cons]
    cases hstep : f a with
    | error e => rfl
    | ok holds =>
      cases holds with
      | false => rfl
      | true => exact ih

theorem mapM_exists_ok {f : α → Except ε β} {l : List α} (h : ∀ a ∈ l, ∃ b, f a = .ok b) :
    ∃ m, l.mapM f = .ok m := by
  induction l with
  | nil => exact ⟨[], rfl⟩
  | cons a l ih =>
    obtain ⟨b, hb⟩ := h a List.mem_cons_self
    obtain ⟨m, hm⟩ := ih fun c hc => h c (List.mem_cons_of_mem a hc)
    exact ⟨b :: m, by rw [List.mapM_cons, hb, hm]; rfl⟩

theorem mapM_ok (f : α → β) (l : List α) :
    l.mapM (fun a => (.ok (f a) : Except ε β)) = .ok (l.map f) := List.mapM_pure

theorem filterM_ok {f : α → Except ε Bool} {g : α → Bool} {l : List α}
    (h : ∀ a ∈ l, f a = .ok (g a)) : l.filterM f = .ok (l.filter g) := by
  have haux : ∀ kept, l.filterAuxM f kept = .ok ((l.filter g).reverse ++ kept) := by
    induction l with
    | nil => exact fun _ => rfl
    | cons a l ih =>
      intro kept
      have hrest := ih fun b hb => h b (List.mem_cons_of_mem a hb)
      rw [List.filterAuxM, h a List.mem_cons_self, ok_bind, hrest]
      cases hg : g a <;> simp [hg]
  rw [List.filterM, haux, ok_bind]
  simp [pure, Except.pure]

theorem mapM_filterMap_ok {κ : Type} {key : α → Option κ} {f : κ → Except ε β} {g : α → β}
    {l : List α} (h : ∀ a ∈ l, ∃ k, key a = some k ∧ f k = .ok (g a)) :
    (l.filterMap key).mapM f = .ok (l.map g) := by
  induction l with
  | nil => rfl
  | cons a l ih =>
    obtain ⟨k, hk, hf⟩ := h a List.mem_cons_self
    rw [List.filterMap_cons_some hk, List.mapM_cons, hf,
      ih fun b hb => h b (List.mem_cons_of_mem a hb)]
    rfl

/-- What every step of a fold preserves holds at its end. -/
theorem of_foldlM_eq_ok {P : β → Prop} {f : β → α → Except ε β} {l : List α} {b c : β}
    (hstep : ∀ d, P d → ∀ a ∈ l, ∀ e, f d a = .ok e → P e) (hb : P b)
    (h : l.foldlM f b = .ok c) : P c := by
  induction l generalizing b with
  | nil => exact pure_eq_ok.mp h ▸ hb
  | cons a l ih =>
    rw [List.foldlM_cons] at h
    obtain ⟨d, hd, h⟩ := bind_eq_ok.mp h
    exact ih (fun d hd a ha => hstep d hd a (List.mem_cons_of_mem _ ha))
      (hstep b hb a List.mem_cons_self d hd) h

theorem map_eq_ok {f : α → β} {x : Except ε α} {b : β} :
    x.map f = .ok b ↔ ∃ a, x = .ok a ∧ f a = b := by
  cases x <;> simp [Except.map]

theorem map_eq_error {f : α → β} {x : Except ε α} {e : ε} :
    f <$> x = .error e ↔ x = .error e := by
  cases x <;> simp [Functor.map, Except.map]

/-- A search ends with an error at the element that the error comes from, and all before it have
been passed over. -/
theorem anyM_eq_error {f : α → Except ε Bool} {l : List α} {e : ε} :
    l.anyM f = .error e ↔ ∃ before a after, l = before ++ a :: after ∧
      (∀ b ∈ before, f b = .ok false) ∧ f a = .error e := by
  constructor
  · intro h
    induction l with
    | nil => cases h
    | cons a l ih =>
      rw [List.anyM_cons] at h
      cases ha : f a with
      | error e' =>
        rw [ha] at h
        obtain rfl := Except.error.inj h
        exact ⟨[], a, l, rfl, by simp, ha⟩
      | ok found =>
        rw [ha, ok_bind] at h
        cases found with
        | true => cases h
        | false =>
          obtain ⟨before, c, after, rfl, hbefore, hc⟩ := ih h
          exact ⟨a :: before, c, after, rfl, List.forall_mem_cons.mpr ⟨ha, hbefore⟩, hc⟩
  · rintro ⟨before, a, after, rfl, hbefore, ha⟩
    induction before with
    | nil =>
      rw [List.nil_append, List.anyM_cons, ha]
      rfl
    | cons b before ih =>
      obtain ⟨hb, hrest⟩ := List.forall_mem_cons.mp hbefore
      rw [List.cons_append, List.anyM_cons, hb, ok_bind]
      exact ih hrest

theorem allM_eq_error {f : α → Except ε Bool} {l : List α} {e : ε} :
    l.allM f = .error e ↔ ∃ before a after, l = before ++ a :: after ∧
      (∀ b ∈ before, f b = .ok true) ∧ f a = .error e := by
  have hnot : ∀ a, (! ·) <$> f a = .ok false ↔ f a = .ok true := by
    intro a
    cases f a <;> simp [Functor.map, Except.map]
  rw [List.allM_eq_not_anyM_not, map_eq_error, anyM_eq_error]
  simp only [hnot, map_eq_error]

theorem exists_mapM_eq_ok_iff {f : α → Except ε β} {l : List α} :
    (∃ m, l.mapM f = .ok m) ↔ ∀ a ∈ l, ∃ b, f a = .ok b := by
  refine ⟨?_, mapM_exists_ok⟩
  rintro ⟨m, hm⟩ a ha
  induction l generalizing m with
  | nil => cases ha
  | cons first l ih =>
    rw [List.mapM_cons] at hm
    obtain ⟨b, hb, hm⟩ := bind_eq_ok.mp hm
    obtain ⟨bs, hbs, -⟩ := bind_eq_ok.mp hm
    rcases List.mem_cons.mp ha with rfl | ha
    · exact ⟨b, hb⟩
    · exact ih bs hbs ha

/-- A traversal ends with the error of the first element that fails. -/
theorem mapM_eq_error {f : α → Except ε β} {l : List α} {e : ε} :
    l.mapM f = .error e ↔ ∃ before a after, l = before ++ a :: after ∧
      (∀ b ∈ before, ∃ c, f b = .ok c) ∧ f a = .error e := by
  constructor
  · intro h
    induction l with
    | nil => cases h
    | cons a l ih =>
      rw [List.mapM_cons] at h
      cases ha : f a with
      | error e' =>
        rw [ha] at h
        obtain rfl := Except.error.inj h
        exact ⟨[], a, l, rfl, by simp, ha⟩
      | ok b =>
        rw [ha, ok_bind] at h
        have hrest : l.mapM f = .error e := map_eq_error.mp h
        obtain ⟨before, c, after, rfl, hbefore, hc⟩ := ih hrest
        exact ⟨a :: before, c, after, rfl, List.forall_mem_cons.mpr ⟨⟨b, ha⟩, hbefore⟩, hc⟩
  · rintro ⟨before, a, after, rfl, hbefore, ha⟩
    obtain ⟨bs, hbs⟩ := mapM_exists_ok hbefore
    rw [List.mapM_append, hbs, ok_bind, List.mapM_cons, ha]
    rfl

section
variable {ε' : Type} (g : ε → ε')

theorem mapError_eq_ok {x : Except ε α} {a : α} : x.mapError g = .ok a ↔ x = .ok a := by
  cases x <;> simp [Except.mapError]

theorem mapError_bind (x : Except ε α) (f : α → Except ε β) :
    (x >>= f).mapError g = x.mapError g >>= fun a => (f a).mapError g := by
  cases x <;> rfl

theorem mapError_mapM (f : α → Except ε β) (l : List α) :
    (l.mapM f).mapError g = l.mapM fun a => (f a).mapError g := by
  induction l with
  | nil => rfl
  | cons a l ih =>
    rw [List.mapM_cons, List.mapM_cons, mapError_bind]
    refine congrArg _ (funext fun b => ?_)
    rw [mapError_bind, ih]
    rfl

theorem mapError_foldlM (f : β → α → Except ε β) (l : List α) (b : β) :
    (l.foldlM f b).mapError g = l.foldlM (fun b a => (f b a).mapError g) b := by
  induction l generalizing b with
  | nil => rfl
  | cons a l ih =>
    rw [List.foldlM_cons, List.foldlM_cons, mapError_bind]
    exact congrArg _ (funext ih)

end

/-- If a computation ends with an error, it is one of a kind. -/
def FailsOnly (P : ε → Prop) (x : Except ε α) : Prop := ∀ e, x = .error e → P e

namespace FailsOnly

variable {P : ε → Prop}

theorem ok (a : α) : FailsOnly P (.ok a) := fun _ h => by cases h

theorem exists_ok {x : Except ε α} (h : FailsOnly P x) (hP : ∀ e, ¬P e) : ∃ a, x = .ok a := by
  cases x with
  | error e => exact absurd (h e rfl) (hP e)
  | ok a => exact ⟨a, rfl⟩

theorem bind {x : Except ε α} {f : α → Except ε β} (hx : FailsOnly P x)
    (hf : ∀ a, FailsOnly P (f a)) : FailsOnly P (x >>= f) := by
  cases x with
  | error e => exact fun e' he => hx e' (congrArg Except.error (Except.error.inj he))
  | ok a => exact hf a

theorem mapM {f : α → Except ε β} {l : List α} (h : ∀ a ∈ l, FailsOnly P (f a)) :
    FailsOnly P (l.mapM f) := by
  induction l with
  | nil => exact ok []
  | cons a l ih =>
    have hrest := ih fun b hb => h b (List.mem_cons_of_mem a hb)
    rw [List.mapM_cons]
    exact (h a List.mem_cons_self).bind fun b => hrest.bind fun bs => ok (b :: bs)

theorem foldlM {f : β → α → Except ε β} {l : List α} (h : ∀ b, ∀ a ∈ l, FailsOnly P (f b a))
    (b : β) : FailsOnly P (l.foldlM f b) := by
  induction l generalizing b with
  | nil => exact ok b
  | cons a l ih =>
    rw [List.foldlM_cons]
    exact (h b a List.mem_cons_self).bind fun c =>
      ih (fun d e he => h d e (List.mem_cons_of_mem a he)) c

theorem filterM {f : α → Except ε Bool} {l : List α} (h : ∀ a ∈ l, FailsOnly P (f a)) :
    FailsOnly P (l.filterM f) := by
  have haux : ∀ kept, FailsOnly P (l.filterAuxM f kept) := by
    induction l with
    | nil => exact ok
    | cons a l ih =>
      intro kept
      rw [List.filterAuxM]
      exact (h a List.mem_cons_self).bind fun b =>
        ih (fun c hc => h c (List.mem_cons_of_mem a hc)) (cond b (a :: kept) kept)
  rw [List.filterM]
  exact (haux []).bind fun kept => ok kept.reverse

theorem anyM {f : α → Except ε Bool} {l : List α} (h : ∀ a ∈ l, FailsOnly P (f a)) :
    FailsOnly P (l.anyM f) := by
  intro e he
  obtain ⟨before, a, after, rfl, -, ha⟩ := anyM_eq_error.mp he
  exact h a (by simp) e ha

theorem allM {f : α → Except ε Bool} {l : List α} (h : ∀ a ∈ l, FailsOnly P (f a)) :
    FailsOnly P (l.allM f) := by
  intro e he
  obtain ⟨before, a, after, rfl, -, ha⟩ := allM_eq_error.mp he
  exact h a (by simp) e ha

end FailsOnly

/-- How a computation ends, whatever its result. -/
def ending (x : Except ε α) : Except ε Unit := x.map fun _ => ()

theorem ending_bind_pure (x : Except ε α) (f : α → β) :
    ending (x >>= fun a => pure (f a)) = ending x := by
  cases x <;> rfl

theorem ending_bind_congr {γ δ : Type} {x : Except ε α} {y : Except ε β} {f : α → Except ε γ}
    {g : β → Except ε δ} (hxy : ending x = ending y) (hfg : ∀ a b, ending (f a) = ending (g b)) :
    ending (x >>= f) = ending (y >>= g) := by
  cases x with
  | error e =>
    cases y with
    | error e' => rw [Except.error.inj hxy]; rfl
    | ok b => cases hxy
  | ok a =>
    cases y with
    | error e' => cases hxy
    | ok b => exact hfg a b

theorem exists_ok_congr {x : Except ε α} {y : Except ε β} (h : ending x = ending y) :
    (∃ a, x = .ok a) ↔ ∃ b, y = .ok b := by
  cases x <;> cases y <;> simp_all [ending, Except.map]

theorem eq_error_congr {x : Except ε α} {y : Except ε β} (h : ending x = ending y) {e : ε} :
    x = .error e ↔ y = .error e := by
  cases x <;> cases y <;> simp_all [ending, Except.map]

variable {π κ : Type}

/-- Two computations go on alike when the rest of them depends only on what their first results
have in common. -/
theorem map_bind_congr {x y : Except ε α} {f g : α → Except ε β} {p : α → π} {q : β → κ}
    (hx : x.map p = y.map p) (hfg : ∀ a b, p a = p b → (f a).map q = (g b).map q) :
    (x >>= f).map q = (y >>= g).map q := by
  cases x with
  | error e =>
    cases y with
    | error e' =>
      obtain rfl := Except.error.inj hx
      rfl
    | ok b => cases hx
  | ok a =>
    cases y with
    | error e' => cases hx
    | ok b => exact hfg a b (Except.ok.inj hx)

theorem bind_map_congr {x : Except ε α} {f g : α → Except ε β} {q : β → κ}
    (hfg : ∀ a, (f a).map q = (g a).map q) : (x >>= f).map q = (x >>= g).map q := by
  cases x with
  | error e => rfl
  | ok a => exact hfg a

theorem ite_map_congr {c : Prop} [Decidable c] {x y x' y' : Except ε α} {q : α → κ}
    (hx : x.map q = x'.map q) (hy : y.map q = y'.map q) :
    (if c then x else y).map q = (if c then x' else y').map q := by
  split
  · exact hx
  · exact hy

theorem mapM_map_congr {f g : α → Except ε β} {p : β → π} {l : List α}
    (h : ∀ a ∈ l, (f a).map p = (g a).map p) :
    (l.mapM f).map (List.map p) = (l.mapM g).map (List.map p) := by
  induction l with
  | nil => rfl
  | cons a l ih =>
    rw [List.mapM_cons, List.mapM_cons]
    refine map_bind_congr (h a List.mem_cons_self) fun b c hbc => ?_
    refine map_bind_congr (ih fun d hd => h d (List.mem_cons_of_mem a hd)) fun bs cs hbcs => ?_
    exact congrArg Except.ok (congrArg₂ List.cons hbc hbcs)

end RelMap
