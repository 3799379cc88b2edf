import RelMap.Proofs.Join.Allocation
import RelMap.Proofs.Join.Follow

/-! The paths that a planner remembers. It goes on to remember them in the rest of a run, so that a
call that has succeeded once finds the label that it asks for. -/
namespace RelMap.Planner

/-- The label of the table from which a call follows relations. -/
def Call.origin? : Call → Option String
  | .reserve _ => none
  | .freshLabel _ => none
  | .relation _ label _ _ => some label
  | .manyToMany _ label _ _ => some label
  | .path _ label _ _ => some label

/-- Whether each call of a run follows relations from a known label or from one that an earlier
call has answered with. -/
def startsKnown (p : Planner) (known : List String) : List Call → Bool
  | [] => true
  | call :: rest =>
    call.origin?.all (· ∈ known) &&
      startsKnown (p.perform call).2 ((p.perform call).1.toOption.toList ++ known) rest

/-- A planner and one that it can become: labels stay in use, no joined table is given one of
them, and the label at the end of a path stays the same. -/
structure Becomes (p q : Planner) : Prop where
  registry_eq : q.registry = p.registry
  root_eq : q.rootLabel = p.rootLabel
  used : ∀ label ∈ p.used, label ∈ q.used
  joins_eq : ∃ added, q.joins = p.joins ++ added ∧ ∀ j ∈ added, j.label ∉ p.used
  labelAt? : ∀ path label, p.labelAt? path = some label → q.labelAt? path = some label

variable {p q u : Planner}

theorem Takes.becomes {labels : List String} (h : p.Takes q labels) : p.Becomes q where
  registry_eq := h.registry_eq
  root_eq := h.root_eq
  used := fun _ hlabel => h.mem_used.mpr (Or.inr hlabel)
  joins_eq := by
    obtain ⟨added, hadded, hsub⟩ := h.joins_eq
    exact ⟨added, hadded, fun j hj => h.not_used _ (hsub.mem (List.mem_map_of_mem hj))⟩
  labelAt? := h.labelAt?

theorem Reserves.becomes (h : p.Reserves q) : p.Becomes q where
  registry_eq := h.registry_eq
  root_eq := h.root_eq
  used := h.used
  joins_eq := ⟨[], by rw [h.joins_eq, List.append_nil], by simp⟩
  labelAt? := fun path label hlabel => by rw [h.labelAt?_eq, hlabel]

namespace Becomes

theorem refl (p : Planner) : p.Becomes p := (Takes.refl p).becomes

theorem trans (h : p.Becomes q) (h' : q.Becomes u) : p.Becomes u where
  registry_eq := h'.registry_eq.trans h.registry_eq
  root_eq := h'.root_eq.trans h.root_eq
  used := fun label hlabel => h'.used label (h.used label hlabel)
  joins_eq := by
    obtain ⟨added, hadded, hnew⟩ := h.joins_eq
    obtain ⟨added', hadded', hnew'⟩ := h'.joins_eq
    refine ⟨added ++ added', by rw [hadded', hadded, List.append_assoc], fun j hj => ?_⟩
    rcases List.mem_append.mp hj with hj | hj
    · exact hnew j hj
    · exact fun hused => hnew' j hj (h.used _ hused)
  labelAt? := fun path label hlabel => h'.labelAt? path label (h.labelAt? path label hlabel)

/-- A label in use keeps its place in the paths that continue from it. -/
theorem pathFrom_eq (h : p.Becomes q) {label : String} (hlabel : label ∈ p.used) (name : String) :
    q.pathFrom label name = p.pathFrom label name := by
  obtain ⟨added, hadded, hnew⟩ := h.joins_eq
  have hnone : (added.find? fun j => j.label = label) = none := by
    rw [List.find?_eq_none]
    intro j hj he
    obtain rfl : j.label = label := by simpa using he
    exact hnew j hj hlabel
  unfold pathFrom
  rw [h.root_eq, hadded, List.find?_append, hnone, Option.or_none]

end Becomes

theorem perform_becomes (p : Planner) (call : Call) : p.Becomes (p.perform call).2 := by
  cases call with
  | reserve label => exact (p.reserve_reserves label).becomes
  | _ => exact (p.perform_takes rfl).becomes

theorem run_becomes (p : Planner) (calls : List Call) : p.Becomes (p.run calls) := by
  induction calls generalizing p with
  | nil => exact Becomes.refl p
  | cons call rest ih => exact (p.perform_becomes call).trans (ih _)

section
variable {model label name target : String} {kind : JoinKind}

theorem addManyToMany_of_labelAt? (h : p.labelAt? (p.pathFrom label name) = some target) :
    p.addManyToMany model label name kind = (.ok target, p) := by
  simp only [addManyToMany, h]

theorem addRelation_of_labelAt? (h : p.labelAt? (p.pathFrom label name) = some target) :
    p.addRelation model label name kind = (.ok target, p) := by
  simp only [addRelation, h]

theorem Adds.labelAt?_eq {path : String} (h : p.Adds q kind model label name path target) :
    q.labelAt? path = some target := by
  rw [labelAt?, h.paths_eq, OrderedMap.find?_insert, if_pos rfl]

theorem labelAt?_of_addManyToMany (h : p.addManyToMany model label name kind = (.ok target, q)) :
    q.labelAt? (p.pathFrom label name) = some target := by
  cases hknown : p.labelAt? (p.pathFrom label name) with
  | some known =>
    rw [addManyToMany_of_labelAt? hknown] at h
    obtain ⟨hanswer, rfl⟩ := Prod.mk.inj h
    rw [hknown, Except.ok.inj hanswer]
  | none => exact (addManyToMany_adds hknown h).labelAt?_eq

theorem labelAt?_of_addRelation (h : p.addRelation model label name kind = (.ok target, q)) :
    q.labelAt? (p.pathFrom label name) = some target := by
  cases hknown : p.labelAt? (p.pathFrom label name) with
  | some known =>
    rw [addRelation_of_labelAt? hknown] at h
    obtain ⟨hanswer, rfl⟩ := Prod.mk.inj h
    rw [hknown, Except.ok.inj hanswer]
  | none => exact (addRelation_adds hknown h).labelAt?_eq

theorem Consistent.used_of_labelAt? {root path : String} (h : p.Consistent root)
    (hlabel : p.labelAt? path = some label) : label ∈ p.used := by
  obtain ⟨j, hj, -, -, rfl⟩ := (h.labelAt?_iff path label).mp hlabel
  exact h.label_used j hj

/-- The path that a call has been answered with is found again later. -/
theorem Becomes.labelAt?_again (h : q.Becomes u) (hp : p.Becomes q) (hused : label ∈ p.used)
    (hlabel : q.labelAt? (p.pathFrom label name) = some target) :
    u.labelAt? (u.pathFrom label name) = some target := by
  rw [(hp.trans h).pathFrom_eq hused]
  exact h.labelAt? _ target hlabel

/-- Relations that have been followed once are followed again without a change. -/
theorem addPath_again {root : String} {relations : List String} (hp : p.Consistent root)
    (hused : label ∈ p.used) (h : p.addPath model label kind relations = (.ok target, q))
    (hu : q.Becomes u) :
    target ∈ q.used ∧ u.addPath model label kind relations = (.ok target, u) := by
  induction relations generalizing p model label with
  | nil =>
    obtain ⟨hanswer, rfl⟩ := Prod.mk.inj h
    obtain rfl := Except.ok.inj hanswer
    exact ⟨hused, rfl⟩
  | cons name rest ih =>
    unfold addPath at h ⊢
    have hbecomes : p.Becomes (p.addRelation model label name kind).2 :=
      p.perform_becomes (.relation model label name kind)
    have hconsistent := hp.addRelation model label name kind
    split at h
    · simp at h
    · next source r hdecl =>
      split_ifs at h with hmany
      · simp at h
      · split at h
        · simp at h
        · next next p' hp' =>
          rw [hp'] at hbecomes hconsistent
          have hlater : p'.Becomes q := by
            have := p'.perform_becomes (.path r.model next kind rest)
            rwa [perform, h] at this
          have hknown := labelAt?_of_addRelation hp'
          obtain ⟨htarget, hrest⟩ := ih hconsistent (hconsistent.used_of_labelAt? hknown) h
          have hregistry : u.registry = p.registry :=
            (hbecomes.trans (hlater.trans hu)).registry_eq
          have hagain : u.addRelation model label name kind = (.ok next, u) :=
            addRelation_of_labelAt? ((hlater.trans hu).labelAt?_again hbecomes hused hknown)
          refine ⟨htarget, ?_⟩
          rw [hregistry, hdecl]
          dsimp only
          rw [if_neg hmany, hagain]
          exact hrest

end

/-- A call that starts from a label in use answers with one in use, and answers so again. -/
theorem perform_again {root : String} {call : Call} {target : String} (hp : p.Consistent root)
    (hused : ∀ origin ∈ call.origin?, origin ∈ p.used) (h : (p.perform call).1 = .ok target)
    (hu : (p.perform call).2.Becomes u) :
    target ∈ (p.perform call).2.used ∧
      (call.origin?.isSome → u.perform call = (.ok target, u)) := by
  have hconsistent := hp.perform call
  have hbecomes := p.perform_becomes call
  have hpair : p.perform call = (.ok target, (p.perform call).2) := by rw [← h]
  generalize (p.perform call).2 = q at *
  cases call with
  | reserve label =>
    obtain ⟨hlabel, rfl⟩ := Prod.mk.inj hpair
    obtain rfl := Except.ok.inj hlabel
    refine ⟨p.perform_used (.reserve label) (Or.inr (Or.inl List.mem_cons_self)), ?_⟩
    simp [Call.origin?]
  | freshLabel table =>
    obtain ⟨hlabel, rfl⟩ := Prod.mk.inj hpair
    obtain rfl := Except.ok.inj hlabel
    exact ⟨p.freshLabel_used table, by simp [Call.origin?]⟩
  | relation model label name kind =>
    have hknown := labelAt?_of_addRelation hpair
    refine ⟨hconsistent.used_of_labelAt? hknown, fun _ => ?_⟩
    exact addRelation_of_labelAt? (hu.labelAt?_again hbecomes (hused label rfl) hknown)
  | manyToMany model label name kind =>
    have hknown := labelAt?_of_addManyToMany hpair
    refine ⟨hconsistent.used_of_labelAt? hknown, fun _ => ?_⟩
    exact addManyToMany_of_labelAt? (hu.labelAt?_again hbecomes (hused label rfl) hknown)
  | path model label kind relations =>
    obtain ⟨htarget, hagain⟩ := addPath_again hp (hused label rfl) hpair hu
    exact ⟨htarget, fun _ => hagain⟩

/-- The calls of a run that starts from labels in use start from labels in use. -/
theorem origin_used_of_startsKnown {root : String} {known : List String} {earlier later : List Call}
    {call : Call} (hp : p.Consistent root) (hknown : ∀ label ∈ known, label ∈ p.used)
    (h : p.startsKnown known (earlier ++ call :: later) = true) :
    ∀ origin ∈ call.origin?, origin ∈ (p.run earlier).used := by
  have hstep : ∀ {p : Planner} {known : List String} {call : Call} {rest : List Call},
      p.startsKnown known (call :: rest) = true →
      (∀ origin ∈ call.origin?, origin ∈ known) ∧
        (p.perform call).2.startsKnown ((p.perform call).1.toOption.toList ++ known) rest =
          true := by
    intro p known call rest h
    rw [startsKnown, Bool.and_eq_true] at h
    refine ⟨fun origin horigin => ?_, h.2⟩
    simpa [Option.mem_def.mp horigin] using h.1
  induction earlier generalizing p known with
  | nil => exact fun origin horigin => hknown origin ((hstep h).1 origin horigin)
  | cons first earlier ih =>
    obtain ⟨horigin, hrest⟩ := hstep h
    refine ih (hp.perform first) (fun label hlabel => ?_) hrest
    rcases List.mem_append.mp hlabel with hanswer | hlabel
    · cases hresult : (p.perform first).1 with
      | error e => simp [hresult, Except.toOption] at hanswer
      | ok target =>
        obtain rfl : label = target := by simpa [hresult, Except.toOption] using hanswer
        exact (perform_again hp (fun o ho => hknown o (horigin o ho)) hresult
          (Becomes.refl _)).1
    · exact (p.perform_becomes first).used label (hknown label hlabel)

/-- In a run whose calls start from the root or from labels that earlier calls have answered with,
joined models have paths of their own, and the paths remembered are theirs. A call that has
succeeded in it gives the same answer again and changes nothing. -/
theorem run_remembers {registry : Registry} {root : String} {calls : List Call}
    (h : (start registry root).startsKnown [root] calls = true) :
    let p := (start registry root).run calls
    ((p.joins.filter fun j => !j.isJunction).map Join.path).Nodup ∧
    (∀ path label, p.labelAt? path = some label ↔
      ∃ j ∈ p.joins, j.isJunction = false ∧ j.path = path ∧ j.label = label) ∧
    ∀ earlier call later label, calls = earlier ++ call :: later → call.origin?.isSome →
      (((start registry root).run earlier).perform call).1 = .ok label →
      p.perform call = (.ok label, p) := by
  intro p
  have hp : p.Consistent root := run_start_consistent registry root calls
  refine ⟨?_, hp.labelAt?_iff, ?_⟩
  · refine List.pairwise_map.mpr ((hp.precedes.filter _).imp_of_mem fun ha hb hab => ?_)
    exact hab.path_ne (by simpa using List.of_mem_filter ha) (by simpa using List.of_mem_filter hb)
  · rintro earlier call later label rfl horigin hanswer
    have hearlier := run_start_consistent registry root earlier
    have hroot : ∀ known ∈ [root], known ∈ (start registry root).used := by
      intro known hknown
      rw [List.mem_singleton.mp hknown]
      exact (start_consistent registry root).root_used
    have hlater : (((start registry root).run earlier).perform call).2.Becomes p := by
      have := (((start registry root).run earlier).perform call).2.run_becomes later
      simpa [p, run, List.foldl_append] using this
    have hknown := origin_used_of_startsKnown (start_consistent registry root) hroot h
    exact (perform_again hearlier hknown hanswer hlater).2 horigin

/-- A label that is not joined, a call that fails, and relations that are followed twice. -/
def postCalls : List Call := [.freshLabel "users", .relation "User" "u" "drafts" .left,
  .path "User" "u" .left ["posts", "tags"], .relation "User" "u2" "posts" .inner,
  .manyToMany "Post" "p2" "tags" .left]

theorem run_remembers_postCalls :
    let p := (start draftRegistry "u").run postCalls
    (start draftRegistry "u").startsKnown ["u"] postCalls = true ∧
    p.joins.map Join.label = ["p2", "pt", "t"] ∧
    ((p.joins.filter fun j => !j.isJunction).map Join.path).Nodup ∧
    p.perform (.relation "User" "u2" "posts" .inner) = (.ok "p2", p) := by
  intro p
  have hknown : (start draftRegistry "u").startsKnown ["u"] postCalls = true := by decide +kernel
  have hanswer : (((start draftRegistry "u").run (postCalls.take 3)).perform
      (.relation "User" "u2" "posts" .inner)).1.toOption = some "p2" := by
    decide +kernel
  obtain ⟨hpaths, -, hagain⟩ := run_remembers hknown
  exact ⟨hknown, by decide +kernel, hpaths, hagain (postCalls.take 3) _
    [.manyToMany "Post" "p2" "tags" .left] "p2" rfl rfl
    (congrArg Prod.fst (perform_eq_ok_of_toOption hanswer))⟩

end RelMap.Planner
