import RelMap.Json.Reader
import RelMap.Proofs.Json.Ordered

/-! Every document that a JSON text holds is ordered. -/
namespace RelMap.Json

section Tokens

/-- A token that stands for a whole document stands for an ordered one. -/
def Token.Ordered : Token → Prop
  | .scalar value => value.Ordered
  | _ => True

variable {state next : Lexing} {c : Char} {text : List Char} {token : Token} {tokens : List Token}

theorem ordered_of_wordToken? (h : wordToken? text = some token) : token.Ordered := by
  unfold wordToken? at h
  split at h <;> cases h
  · exact .null
  · exact .bool true
  · exact .bool false

theorem ordered_of_readNumber? {value : Json} (h : readNumber? text = some value) :
    value.Ordered := by
  unfold readNumber? at h
  split at h <;> obtain ⟨n | x, -, rfl⟩ := Option.map_eq_some_iff.mp h
  · dsimp only
    split
    · exact .int _
    · exact .float _
  · exact .float _
  · exact .int _
  · exact .float _

theorem ordered_of_numberToken? (h : numberToken? text = some token) : token.Ordered := by
  obtain ⟨value, hvalue, rfl⟩ := Option.map_eq_some_iff.mp h
  exact ordered_of_readNumber? hvalue

/-- A character outside texts, words and numbers begins no token that is a whole document. -/
theorem ordered_of_beginToken? (h : beginToken? c = some (next, tokens)) :
    ∀ token ∈ tokens, token.Ordered := by
  unfold beginToken? at h
  split at h <;> try split_ifs at h
  all_goals
    cases h
    simp [Token.Ordered]

/-- A character that ends a token and begins the next one. -/
theorem ordered_of_ended {ended : Option Token} (hended : ∀ token, ended = some token → token.Ordered)
    (h : (do
      let token ← ended
      let (next, tokens) ← beginToken? c
      return (next, token :: tokens)) = some (next, tokens)) :
    ∀ token ∈ tokens, token.Ordered := by
  obtain ⟨token, htoken, h⟩ := Option.bind_eq_some_iff.mp h
  obtain ⟨⟨next, tokens⟩, hbegin, h⟩ := Option.bind_eq_some_iff.mp h
  cases h
  exact List.forall_mem_cons.mpr ⟨hended token htoken, ordered_of_beginToken? hbegin⟩

theorem Lexing.ordered_of_step? (h : state.step? c = some (next, tokens)) :
    ∀ token ∈ tokens, token.Ordered := by
  cases state with
  | between => exact ordered_of_beginToken? h
  | word chars =>
    rw [step?] at h
    split_ifs at h
    · cases h
      simp
    · exact ordered_of_ended (fun _ => ordered_of_wordToken?) h
  | number chars =>
    rw [step?] at h
    split_ifs at h
    · cases h
      simp
    · exact ordered_of_ended (fun _ => ordered_of_numberToken?) h
  | text chars =>
    rw [step?] at h
    split_ifs at h <;> cases h <;> simp [Token.Ordered]
  | escape chars =>
    rw [step?] at h
    split_ifs at h
    · cases h
      simp
    · obtain ⟨d, -, h⟩ := Option.map_eq_some_iff.mp h
      cases h
      simp
  | unit chars first digits =>
    rw [step?] at h
    split_ifs at h
    · cases h
      simp
    · obtain ⟨d, -, h⟩ := Option.map_eq_some_iff.mp h
      cases h
      simp
  | pair chars first slash =>
    rw [step?] at h
    split_ifs at h <;> cases h <;> simp

theorem Lexing.ordered_of_finish? (h : state.finish? = some tokens) :
    ∀ token ∈ tokens, token.Ordered := by
  cases state with
  | between =>
    cases h
    simp
  | word chars =>
    obtain ⟨token, htoken, rfl⟩ := Option.map_eq_some_iff.mp h
    exact List.forall_mem_singleton.mpr (ordered_of_wordToken? htoken)
  | number chars =>
    obtain ⟨token, htoken, rfl⟩ := Option.map_eq_some_iff.mp h
    exact List.forall_mem_singleton.mpr (ordered_of_numberToken? htoken)
  | _ => cases h

theorem Lexing.ordered_of_run? (h : state.run? text = some tokens) :
    ∀ token ∈ tokens, token.Ordered := by
  induction text generalizing state tokens with
  | nil => exact ordered_of_finish? h
  | cons c rest ih =>
    obtain ⟨⟨next, first⟩, hstep, h⟩ := Option.bind_eq_some_iff.mp h
    obtain ⟨more, hrun, h⟩ := Option.bind_eq_some_iff.mp h
    cases h
    exact List.forall_mem_append.mpr ⟨ordered_of_step? hstep, ih hrun⟩

end Tokens

/-- What an open array or object holds so far is ordered. -/
def Frame.Ordered : Frame → Prop
  | .items done => ∀ item ∈ done, item.Ordered
  | .entries done => (Json.obj done).Ordered
  | .entry done _ => (Json.obj done).Ordered

/-- All that has been read is ordered. -/
structure Reading.Ordered (r : Reading) : Prop where
  stack : ∀ frame ∈ r.stack, frame.Ordered
  document : ∀ document, r.need = .nothing document → document.Ordered

variable {value : Json} {stack : List Frame} {r s : Reading} {token : Token}

theorem ordered_of_place? (hvalue : value.Ordered) (hstack : ∀ frame ∈ stack, frame.Ordered)
    (h : place? value stack = some r) : r.Ordered := by
  match stack with
  | [] =>
    cases h
    exact ⟨hstack, fun _ hneed => by cases hneed; exact hvalue⟩
  | .items done :: stack =>
    cases h
    obtain ⟨hdone, hrest⟩ := List.forall_mem_cons.mp hstack
    exact ⟨List.forall_mem_cons.mpr ⟨List.forall_mem_cons.mpr ⟨hvalue, hdone⟩, hrest⟩, by simp⟩
  | .entry done key :: stack =>
    cases h
    obtain ⟨hdone, hrest⟩ := List.forall_mem_cons.mp hstack
    exact ⟨List.forall_mem_cons.mpr ⟨Json.Ordered.insertEntry hdone hvalue key, hrest⟩, by simp⟩
  | .entries _ :: _ => cases h

theorem ordered_of_open? {frame : Frame} {need : Need} (hframe : frame.Ordered)
    (hneed : ∀ document, need ≠ .nothing document) (hstack : ∀ frame ∈ stack, frame.Ordered)
    (h : open? stack frame need = some r) : r.Ordered := by
  unfold open? at h
  split_ifs at h
  cases h
  exact ⟨List.forall_mem_cons.mpr ⟨hframe, hstack⟩, fun document h => absurd h (hneed document)⟩

theorem Reading.Ordered.step? (hr : r.Ordered) (htoken : token.Ordered)
    (h : r.step? token = some s) : s.Ordered := by
  cases token with
  | scalar value =>
    rw [Reading.step?] at h
    split_ifs at h
    exact ordered_of_place? htoken hr.stack h
  | text value =>
    rw [Reading.step?] at h
    split_ifs at h
    · exact ordered_of_place? (.str value) hr.stack h
    · cases h
      exact ⟨hr.stack, by simp⟩
  | openArray =>
    rw [Reading.step?] at h
    split_ifs at h
    have hframe : (Frame.items []).Ordered := fun _ hitem => by cases hitem
    exact ordered_of_open? hframe (by simp) hr.stack h
  | openObject =>
    rw [Reading.step?] at h
    split_ifs at h
    have hframe : (Frame.entries []).Ordered := ordered_empty
    exact ordered_of_open? hframe (by simp) hr.stack h
  | closeArray =>
    rw [Reading.step?] at h
    split at h
    · next done stack hstack =>
      split_ifs at h
      obtain ⟨hdone, hrest⟩ := List.forall_mem_cons.mp (hstack ▸ hr.stack)
      refine ordered_of_place? (.arr fun item hitem => ?_) hrest h
      exact hdone item (List.mem_reverse.mp hitem)
    · cases h
  | closeObject =>
    rw [Reading.step?] at h
    split at h
    · next done stack hstack =>
      split_ifs at h
      obtain ⟨hdone, hrest⟩ := List.forall_mem_cons.mp (hstack ▸ hr.stack)
      exact ordered_of_place? hdone hrest h
    · cases h
  | comma =>
    rw [Reading.step?] at h
    split at h <;> cases h
    · exact ⟨hr.stack, by simp⟩
    · exact ⟨hr.stack, by simp⟩
  | colon =>
    rw [Reading.step?] at h
    split at h
    · next key done stack _ hstack =>
      cases h
      obtain ⟨hdone, hrest⟩ := List.forall_mem_cons.mp (hstack ▸ hr.stack)
      exact ⟨List.forall_mem_cons.mpr ⟨hdone, hrest⟩, by simp⟩
    · cases h

theorem Reading.Ordered.run? {tokens : List Token} {document : Json} (hr : r.Ordered)
    (htokens : ∀ token ∈ tokens, token.Ordered) (h : r.run? tokens = some document) :
    document.Ordered := by
  induction tokens generalizing r with
  | nil =>
    rw [Reading.run?] at h
    split at h
    · next _ hneed =>
      cases h
      exact hr.document _ hneed
    · cases h
  | cons token rest ih =>
    obtain ⟨htoken, hrest⟩ := List.forall_mem_cons.mp htokens
    obtain ⟨s, hstep, hrun⟩ := Option.bind_eq_some_iff.mp h
    exact ih (hr.step? htoken hstep) hrest hrun

/-- Every document that is read lists the keys of its objects once and in order. -/
theorem ordered_of_parse? {text : String} {document : Json} (h : parse? text = some document) :
    document.Ordered := by
  obtain ⟨tokens, htokens, hrun⟩ := Option.bind_eq_some_iff.mp h
  have hstart : Reading.Ordered ⟨[], .value⟩ := ⟨by simp, by simp⟩
  exact hstart.run? (Lexing.ordered_of_run? htokens) hrun

end RelMap.Json
