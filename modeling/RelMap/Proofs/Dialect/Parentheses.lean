import Mathlib.Data.List.Basic
import RelMap.Dialect.Basic
import RelMap.Proofs.Outcome
import RelMap.Sql

/-! Parentheses outside quoted identifiers. Texts in which they match can be read back from where
each stands in parentheses of its own, whatever is written between them. -/
namespace RelMap

namespace Parentheses

/-- How far a text has been read: whether an identifier is open, and how many parentheses are. -/
structure State where
  quoted : Bool := false
  depth : Nat := 0
  deriving DecidableEq

/-- Reads one character, unless it closes what has not been opened. -/
def step (d : Dialect) (s : State) (c : Char) : Option State :=
  if c = d.quoteChar then some { s with quoted := !s.quoted }
  else if s.quoted then some s
  else if c = '(' then some { s with depth := s.depth + 1 }
  else if c = ')' then if s.depth = 0 then none else some { s with depth := s.depth - 1 }
  else some s

def scan (d : Dialect) (s : State) (text : List Char) : Option State := text.foldlM (step d) s

/-- Outside quoted identifiers every parenthesis has its other half, and none closes before it
opens. -/
def Balanced (d : Dialect) (text : String) : Prop := scan d {} text.toList = some {}

/-- A character that counts nowhere. -/
def isPlain (c : Char) : Bool := c ∉ ['(', ')', '"', '\x60']

instance (d : Dialect) (text : String) : Decidable (Balanced d text) :=
  inferInstanceAs (Decidable (scan d {} text.toList = some {}))

/-- The same place in a text, but under more parentheses. -/
def State.under (s : State) (n : Nat) : State := { s with depth := s.depth + n }

variable {d : Dialect} {s t : State} {a b : String}

theorem scan_append (text rest : List Char) :
    scan d s (text ++ rest) = (scan d s text).bind fun t => scan d t rest :=
  List.foldlM_append

theorem step_under {c : Char} (h : step d s c = some t) (n : Nat) :
    step d (s.under n) c = some (t.under n) := by
  unfold step at h ⊢
  unfold State.under
  split_ifs at h ⊢ with hquote hquoted hopen hclose hunder hzero <;>
    obtain rfl := Option.some.inj h
  · rfl
  · rfl
  · simp only [Nat.add_right_comm]
  · exact absurd (Nat.add_eq_zero_iff.mp hunder).1 hzero
  · simp only [Option.some.injEq, State.mk.injEq, true_and]
    omega
  · rfl

theorem scan_under {text : List Char} (h : scan d s text = some t) (n : Nat) :
    scan d (s.under n) text = some (t.under n) := by
  induction text generalizing s with
  | nil => exact congrArg some (congrArg (State.under · n) (Option.some.inj h))
  | cons c text ih =>
    obtain ⟨next, hnext, hrest⟩ := Option.bind_eq_some_iff.mp h
    exact Option.bind_eq_some_iff.mpr ⟨_, step_under hnext n, ih hrest⟩

namespace Balanced

theorem scan_at (h : Balanced d a) (n : Nat) :
    scan d { depth := n } a.toList = some { depth := n } := by
  simpa [State.under] using scan_under h n

theorem append (ha : Balanced d a) (hb : Balanced d b) : Balanced d (a ++ b) := by
  rw [Balanced, String.toList_append, scan_append, ha]
  exact hb

theorem joinWith {separator : String} {parts : List String} (hseparator : Balanced d separator)
    (hparts : ∀ part ∈ parts, Balanced d part) : Balanced d (Text.joinWith separator parts) := by
  induction parts with
  | nil => rfl
  | cons part rest ih =>
    obtain ⟨hpart, hrest⟩ := List.forall_mem_cons.mp hparts
    cases rest with
    | nil => exact hpart
    | cons next more => exact (hpart.append hseparator).append (ih hrest)

theorem parenthesized (h : Balanced d a) : Balanced d (Sql.parenthesized a) := by
  have hopen : scan d {} "(".toList = some { depth := 1 } := by cases d <;> rfl
  have hclose : scan d { depth := 1 } ")".toList = some {} := by cases d <;> rfl
  rw [Sql.parenthesized, Balanced, String.toList_append, String.toList_append, scan_append,
    scan_append, hopen, Option.bind_some, h.scan_at 1]
  exact hclose

/-- A text with neither quotes nor parentheses. -/
theorem of_plain (h : a.toList.all isPlain = true) : Balanced d a := by
  have hstep : ∀ c ∈ a.toList, step d {} c = some {} := by
    intro c hc
    have hplain := of_decide_eq_true (List.all_eq_true.mp h c hc)
    simp only [List.mem_cons, List.not_mem_nil, or_false, not_or] at hplain
    obtain ⟨hopen, hclose, hdouble, hback⟩ := hplain
    have hquote : c ≠ d.quoteChar := by cases d <;> assumption
    simp [step, hquote, hopen, hclose]
  unfold Balanced scan
  generalize a.toList = text at hstep
  induction text with
  | nil => rfl
  | cons c text ih =>
    obtain ⟨hc, hrest⟩ := List.forall_mem_cons.mp hstep
    rw [List.foldlM_cons, hc]
    exact ih hrest

end Balanced

/-- An identifier stays open over what is written in it: a quote there closes it and its double
opens it again. -/
private theorem scan_escaped (identifier : List Char) :
    scan d { quoted := true }
      (identifier.flatMap fun c => if c = d.quoteChar then [d.quoteChar, d.quoteChar] else [c]) =
        some { quoted := true } := by
  induction identifier with
  | nil => rfl
  | cons c identifier ih =>
    rw [List.flatMap_cons, scan_append]
    split_ifs with hc
    · have hpair : scan d { quoted := true } [d.quoteChar, d.quoteChar] =
          some { quoted := true } := by
        cases d <;> rfl
      rw [hpair]
      exact ih
    · have hsingle : scan d { quoted := true } [c] = some { quoted := true } := by
        simp [scan, step, hc]
      rw [hsingle]
      exact ih

/-- Whatever an identifier is made of, no parenthesis in it counts. -/
theorem balanced_quote (d : Dialect) (identifier : String) : Balanced d (d.quote identifier) := by
  have hopen : scan d {} [d.quoteChar] = some { quoted := true } := by cases d <;> rfl
  have hclose : scan d { quoted := true } [d.quoteChar] = some {} := by cases d <;> rfl
  unfold Dialect.quote
  split_ifs with hstar
  · rw [hstar]
    exact .of_plain (by decide)
  · dsimp only
    rw [Balanced, String.toList_ofList, List.cons_append, ← List.singleton_append, scan_append,
      hopen, Option.bind_some, scan_append, scan_escaped]
    exact hclose

/-- A text in which parentheses match ends where the parenthesis around it closes. -/
theorem eq_of_append_close {x y : List Char} (ha : Balanced d a) (hb : Balanced d b)
    (h : a.toList ++ ')' :: x = b.toList ++ ')' :: y) : a = b ∧ x = y := by
  -- The longer text would go on behind a parenthesis that it has not opened.
  have hcut : ∀ {a b : String} {x y : List Char}, Balanced d a → Balanced d b →
      (∃ more, b.toList = a.toList ++ more ∧ ')' :: x = more ++ ')' :: y) → a = b ∧ x = y := by
    rintro a b x y ha hb ⟨more, hmore, hrest⟩
    cases more with
    | nil =>
      rw [List.append_nil] at hmore
      exact ⟨String.toList_injective hmore.symm, (List.cons.inj hrest).2⟩
    | cons c more =>
      obtain ⟨rfl, -⟩ := List.cons.inj hrest
      have hstep : step d {} ')' = none := by cases d <;> rfl
      rw [Balanced, hmore, scan_append, ha, Option.bind_some, scan, List.foldlM_cons, hstep] at hb
      cases hb
  rcases List.append_eq_append_iff.mp h with hlonger | ⟨more, hmore, hrest⟩
  · exact hcut ha hb hlonger
  · obtain ⟨hba, hyx⟩ := hcut hb ha ⟨more, hmore, hrest⟩
    exact ⟨hba.symm, hyx.symm⟩

theorem eq_of_parenthesized_append {x y : String} (ha : Balanced d a) (hb : Balanced d b)
    (h : Sql.parenthesized a ++ x = Sql.parenthesized b ++ y) : a = b ∧ x = y := by
  have hlist := congrArg String.toList h
  simp only [Sql.parenthesized, String.toList_append, List.append_assoc] at hlist
  obtain ⟨hab, hxy⟩ := eq_of_append_close ha hb (List.cons.inj hlist).2
  exact ⟨hab, String.toList_injective hxy⟩

/-- What follows the first of several texts that are joined. -/
private def joinedAfter (joiner : String) (texts : List String) : String :=
  if texts = [] then "" else joiner ++ Text.joinWith joiner (texts.map Sql.parenthesized)

private theorem joinWith_eq_joinedAfter (joiner text : String) (rest : List String) :
    Text.joinWith joiner ((text :: rest).map Sql.parenthesized) =
      Sql.parenthesized text ++ joinedAfter joiner rest := by
  cases rest with
  | nil => simp [joinedAfter, Text.joinWith]
  | cons next more => simp [joinedAfter, Text.joinWith, String.append_assoc]

private theorem joinedAfter_eq_empty {joiner : String} {texts : List String} :
    joinedAfter joiner texts = "" ↔ texts = [] := by
  cases texts with
  | nil => simp [joinedAfter]
  | cons text rest =>
    rw [joinedAfter, if_neg (List.cons_ne_nil _ _), joinWith_eq_joinedAfter]
    simp [Sql.parenthesized]

/-- Texts in parentheses of their own can be told from what they are joined to. -/
theorem joinWith_parenthesized_inj {joiner : String} {texts texts' : List String}
    (htexts : ∀ text ∈ texts, Balanced d text) (htexts' : ∀ text ∈ texts', Balanced d text)
    (h : Text.joinWith joiner (texts.map Sql.parenthesized) =
      Text.joinWith joiner (texts'.map Sql.parenthesized)) : texts = texts' := by
  induction texts generalizing texts' with
  | nil =>
    cases texts' with
    | nil => rfl
    | cons text' rest' =>
      rw [joinWith_eq_joinedAfter] at h
      simp [Text.joinWith, Sql.parenthesized] at h
  | cons text rest ih =>
    cases texts' with
    | nil =>
      rw [joinWith_eq_joinedAfter] at h
      simp [Text.joinWith, Sql.parenthesized] at h
    | cons text' rest' =>
      obtain ⟨htext, hrest⟩ := List.forall_mem_cons.mp htexts
      obtain ⟨htext', hrest'⟩ := List.forall_mem_cons.mp htexts'
      rw [joinWith_eq_joinedAfter, joinWith_eq_joinedAfter] at h
      obtain ⟨rfl, hafter⟩ := eq_of_parenthesized_append htext htext' h
      refine congrArg (text :: ·) ?_
      by_cases hnil : rest = []
      · subst hnil
        exact (joinedAfter_eq_empty.mp hafter.symm).symm
      · have hnil' : rest' ≠ [] := by
          rintro rfl
          exact hnil (joinedAfter_eq_empty.mp hafter)
        rw [joinedAfter, joinedAfter, if_neg hnil, if_neg hnil', String.append_right_inj] at hafter
        exact ih hrest hrest' hafter

/-- Where several texts are joined, the joiner stands behind the first. -/
theorem joiner_of_joinWith_eq {joiner joiner' : String} {texts texts' : List String}
    (htexts : ∀ text ∈ texts, Balanced d text) (htexts' : ∀ text ∈ texts', Balanced d text)
    (hlength : 2 ≤ texts.length) (hlength' : 2 ≤ texts'.length)
    (h : Text.joinWith joiner (texts.map Sql.parenthesized) =
      Text.joinWith joiner' (texts'.map Sql.parenthesized)) :
    ∃ x y, joiner ++ x = joiner' ++ y := by
  match texts, texts', hlength, hlength' with
  | text :: next :: rest, text' :: next' :: rest', _, _ =>
    rw [joinWith_eq_joinedAfter, joinWith_eq_joinedAfter] at h
    obtain ⟨-, hafter⟩ := eq_of_parenthesized_append (htexts _ List.mem_cons_self)
      (htexts' _ List.mem_cons_self) h
    exact ⟨_, _, hafter⟩

/-- The part of a text that stands in no parentheses, these included. -/
def outlineFrom (d : Dialect) (s : State) : List Char → List Char
  | [] => []
  | c :: rest =>
    match step d s c with
    | none => []
    | some t => (if s.depth = 0 ∨ t.depth = 0 then [c] else []) ++ outlineFrom d t rest

def outline (d : Dialect) (text : String) : String := String.ofList (outlineFrom d {} text.toList)

theorem outlineFrom_append {text rest : List Char} (h : scan d s text = some t) :
    outlineFrom d s (text ++ rest) = outlineFrom d s text ++ outlineFrom d t rest := by
  induction text generalizing s with
  | nil =>
    obtain rfl := Option.some.inj h
    rfl
  | cons c text ih =>
    obtain ⟨next, hnext, hrest⟩ := Option.bind_eq_some_iff.mp h
    rw [List.cons_append, outlineFrom, outlineFrom, hnext]
    dsimp only
    rw [ih hrest, List.append_assoc]

/-- Nothing of a text that stands in parentheses shows. -/
theorem outlineFrom_under {text : List Char} (h : scan d s text = some t) (n : Nat) :
    outlineFrom d (s.under (n + 1)) text = [] := by
  induction text generalizing s with
  | nil => rfl
  | cons c text ih =>
    obtain ⟨next, hnext, hrest⟩ := Option.bind_eq_some_iff.mp h
    rw [outlineFrom, step_under hnext]
    dsimp only
    rw [ih hrest]
    simp [State.under]

theorem outline_append (ha : Balanced d a) (b : String) :
    outline d (a ++ b) = outline d a ++ outline d b := by
  rw [outline, String.toList_append, outlineFrom_append ha, String.ofList_append]
  rfl

theorem outline_parenthesized (ha : Balanced d a) : outline d (Sql.parenthesized a) = "()" := by
  have hopen : scan d {} "(".toList = some { depth := 1 } := by cases d <;> rfl
  have hbefore : outlineFrom d {} "(".toList = ['('] := by cases d <;> rfl
  have hafter : outlineFrom d { depth := 1 } ")".toList = [')'] := by cases d <;> rfl
  have hinside : outlineFrom d { depth := 1 } a.toList = [] := outlineFrom_under ha 0
  rw [outline, Sql.parenthesized, String.toList_append, String.toList_append, List.append_assoc,
    outlineFrom_append hopen, outlineFrom_append (ha.scan_at 1), hbefore, hinside, hafter]
  rfl

/-- Of texts in parentheses only the joiners show. -/
theorem outline_joinWith_parenthesized {joiner : String} {texts : List String}
    (hjoiner : Balanced d joiner) (houtline : outline d joiner = joiner)
    (htexts : ∀ text ∈ texts, Balanced d text) :
    outline d (Text.joinWith joiner (texts.map Sql.parenthesized)) =
      Text.joinWith joiner (List.replicate texts.length "()") := by
  induction texts with
  | nil => rfl
  | cons text rest ih =>
    obtain ⟨htext, hrest⟩ := List.forall_mem_cons.mp htexts
    have hwhole := htext.parenthesized
    rw [joinWith_eq_joinedAfter, outline_append hwhole, outline_parenthesized htext, joinedAfter]
    cases rest with
    | nil => rfl
    | cons next more =>
      rw [if_neg (List.cons_ne_nil _ _), outline_append hjoiner, houtline, ih hrest,
        ← String.append_assoc]
      rfl

end Parentheses
end RelMap
