import RelMap.Proofs.Join.Run

/-! The labels that a planner takes for tables. Each is taken once: whatever else is asked for, and
whether or not it can be done, no later table is given a label that is in use. -/
namespace RelMap.Planner

/-- The label that a call asks to be set aside. -/
def Call.reserved : Call → List String
  | .reserve label => [label]
  | _ => []

/-- The labels that a call takes for tables, in this order: those that are in use after it and were
not before. A call that fails may have taken some. -/
def taken (p : Planner) : Call → List String
  | .reserve _ => []
  | call =>
    let used := (p.perform call).2.used
    (used.take (used.length - p.used.length)).reverse

/-- The labels that the calls of a run take for tables, in this order. -/
def takenInRun (p : Planner) : List Call → List String
  | [] => []
  | call :: rest => p.taken call ++ takenInRun (p.perform call).2 rest

/-- A planner after labels have been taken for tables, some of them for joins that it has added.
It remembers every path that it did before. -/
structure Takes (p q : Planner) (labels : List String) : Prop where
  registry_eq : q.registry = p.registry
  root_eq : q.rootLabel = p.rootLabel
  used_eq : q.used = labels.reverse ++ p.used
  nodup : labels.Nodup
  not_used : ∀ label ∈ labels, label ∉ p.used
  no_underscore : ∀ label ∈ labels, '_' ∉ label.toList
  joins_eq : ∃ added, q.joins = p.joins ++ added ∧ (added.map Join.label).Sublist labels
  labelAt? : ∀ path label, p.labelAt? path = some label → q.labelAt? path = some label

theorem freshLabel_no_underscore (p : Planner) (table : String) :
    '_' ∉ (p.freshLabel table).1.toList := by
  obtain ⟨n, hlabel⟩ := p.freshLabel_eq table
  rw [hlabel]
  intro hmem
  rcases Label.mem_candidate hmem with h | h | h
  · exact absurd h (by decide)
  · exact absurd h (by decide)
  · exact h.1 rfl

theorem addJunction_labelAt? (p : Planner) (source : Model) (r : Relation)
    (model label name path : String) (kind : JoinKind) (known : String) :
    (p.addJunction source r model label name path kind).2.labelAt? known = p.labelAt? known := by
  unfold addJunction
  dsimp only
  split <;> rfl

namespace Takes

variable {p q u : Planner} {labels more : List String}

theorem refl (p : Planner) : p.Takes p [] where
  registry_eq := rfl
  root_eq := rfl
  used_eq := rfl
  nodup := List.nodup_nil
  not_used := by simp
  no_underscore := by simp
  joins_eq := ⟨[], (List.append_nil _).symm, List.Sublist.refl []⟩
  labelAt? := fun _ _ h => h

theorem mem_used (h : p.Takes q labels) {label : String} :
    label ∈ q.used ↔ label ∈ labels ∨ label ∈ p.used := by
  rw [h.used_eq, List.mem_append, List.mem_reverse]

theorem trans (h : p.Takes q labels) (h' : q.Takes u more) : p.Takes u (labels ++ more) where
  registry_eq := h'.registry_eq.trans h.registry_eq
  root_eq := h'.root_eq.trans h.root_eq
  used_eq := by rw [h'.used_eq, h.used_eq, List.reverse_append, List.append_assoc]
  nodup := by
    refine List.nodup_append.mpr ⟨h.nodup, h'.nodup, fun a ha b hb he => ?_⟩
    exact h'.not_used b hb (h.mem_used.mpr (Or.inl (he ▸ ha)))
  not_used := by
    intro label hlabel hused
    rcases List.mem_append.mp hlabel with hlabel | hlabel
    · exact h.not_used label hlabel hused
    · exact h'.not_used label hlabel (h.mem_used.mpr (Or.inr hused))
  no_underscore := by
    intro label hlabel
    rcases List.mem_append.mp hlabel with hlabel | hlabel
    · exact h.no_underscore label hlabel
    · exact h'.no_underscore label hlabel
  joins_eq := by
    obtain ⟨added, hadded, hsub⟩ := h.joins_eq
    obtain ⟨added', hadded', hsub'⟩ := h'.joins_eq
    refine ⟨added ++ added', by rw [hadded', hadded, List.append_assoc], ?_⟩
    rw [List.map_append]
    exact hsub.append hsub'
  labelAt? := fun path label hlabel => h'.labelAt? path label (h.labelAt? path label hlabel)

theorem of_freshLabel (p : Planner) (table : String) :
    p.Takes (p.freshLabel table).2 [(p.freshLabel table).1] where
  registry_eq := rfl
  root_eq := rfl
  used_eq := rfl
  nodup := List.pairwise_singleton _ _
  not_used := by simpa using p.freshLabel_not_used table
  no_underscore := by simpa using p.freshLabel_no_underscore table
  joins_eq := ⟨[], (List.append_nil _).symm, List.nil_sublist _⟩
  labelAt? := fun _ _ h => h

/-- The join for which a label is taken, if its path is not joined yet. -/
theorem push {label : String} (h : p.Takes q [label]) (hjoins : q.joins = p.joins) {j : Join}
    (hj : j.label = label) : p.Takes (q.push j) [label] where
  registry_eq := h.registry_eq
  root_eq := h.root_eq
  used_eq := h.used_eq
  nodup := h.nodup
  not_used := h.not_used
  no_underscore := h.no_underscore
  joins_eq := ⟨[j], by rw [← hjoins]; rfl, by rw [List.map_singleton, hj]⟩
  labelAt? := h.labelAt?

theorem pushPath {label : String} (h : p.Takes q [label]) (hjoins : q.joins = p.joins) {j : Join}
    (hj : j.label = label) (hnew : p.labelAt? j.path = none) :
    p.Takes (q.pushPath j) [label] where
  registry_eq := h.registry_eq
  root_eq := h.root_eq
  used_eq := h.used_eq
  nodup := h.nodup
  not_used := h.not_used
  no_underscore := h.no_underscore
  joins_eq := (h.push hjoins hj).joins_eq
  labelAt? := by
    intro path known hknown
    have hne : j.path ≠ path := by
      rintro rfl
      simp [hnew] at hknown
    have hset : (q.pushPath j).labelAt? path =
        if j.path = path then some j.label else q.labelAt? path :=
      OrderedMap.find?_insert ..
    rw [hset, if_neg hne]
    exact h.labelAt? path known hknown

end Takes

section
variable (p : Planner)

theorem addDirect_takes {source target : Model} {r : Relation} {label name path : String}
    {kind : JoinKind} (hnew : p.labelAt? path = none) :
    p.Takes (p.addDirect source target r label name path kind).2
      [(p.freshLabel target.table).1] := by
  have hfresh := Takes.of_freshLabel p target.table
  unfold addDirect
  dsimp only
  split
  · exact hfresh
  · exact hfresh.pushPath rfl rfl hnew

theorem addJunction_takes (source : Model) (r : Relation) (model label name path : String)
    (kind : JoinKind) :
    p.Takes (p.addJunction source r model label name path kind).2
      [(p.freshLabel (Naming.junctionTable model r.model)).1] := by
  have hfresh := Takes.of_freshLabel p (Naming.junctionTable model r.model)
  unfold addJunction
  dsimp only
  split
  · exact hfresh
  · exact hfresh.push rfl rfl

theorem addFarSide_takes {target : Model} {r : Relation} {junctionLabel label name path : String}
    {kind : JoinKind} (hnew : p.labelAt? path = none) :
    p.Takes (p.addFarSide target r junctionLabel label name path kind).2
      [(p.freshLabel target.table).1] := by
  have hfresh := Takes.of_freshLabel p target.table
  unfold addFarSide
  dsimp only
  split
  · exact hfresh
  · exact hfresh.pushPath rfl rfl hnew

theorem addManyToMany_takes (model label name : String) (kind : JoinKind) :
    ∃ labels, p.Takes (p.addManyToMany model label name kind).2 labels := by
  have hrefl : ∃ labels, p.Takes p labels := ⟨[], Takes.refl p⟩
  unfold addManyToMany
  dsimp only
  split
  · exact hrefl
  · next hnew =>
    split
    · exact hrefl
    · next source r _ =>
      split_ifs
      · exact hrefl
      · exact hrefl
      · split
        · exact hrefl
        · next target _ =>
          have hj := p.addJunction_takes source r model label name (p.pathFrom label name) kind
          have hnone := p.addJunction_labelAt? source r model label name (p.pathFrom label name)
            kind (p.pathFrom label name)
          split
          · next e q hq =>
            rw [hq] at hj
            exact ⟨_, hj⟩
          · next junctionLabel q hq =>
            rw [hq] at hj hnone
            exact ⟨_, hj.trans (q.addFarSide_takes (hnone.trans hnew))⟩

theorem addRelation_takes (model label name : String) (kind : JoinKind) :
    ∃ labels, p.Takes (p.addRelation model label name kind).2 labels := by
  have hrefl : ∃ labels, p.Takes p labels := ⟨[], Takes.refl p⟩
  unfold addRelation
  dsimp only
  split
  · exact hrefl
  · next hnew =>
    split
    · exact hrefl
    · split_ifs
      · exact p.addManyToMany_takes model label name kind
      · split
        · exact hrefl
        · exact ⟨_, p.addDirect_takes hnew⟩

theorem addPath_takes (model label : String) (kind : JoinKind) (relations : List String) :
    ∃ labels, p.Takes (p.addPath model label kind relations).2 labels := by
  induction relations generalizing p model label with
  | nil => exact ⟨[], Takes.refl p⟩
  | cons name rest ih =>
    unfold addPath
    split
    · exact ⟨[], Takes.refl p⟩
    · split_ifs
      · exact ⟨[], Takes.refl p⟩
      · have hr := p.addRelation_takes model label name kind
        split
        · next e q hq =>
          rw [hq] at hr
          exact hr
        · next next q hq =>
          rw [hq] at hr
          obtain ⟨labels, hlabels⟩ := hr
          obtain ⟨more, hmore⟩ := ih q _ _
          exact ⟨_, hlabels.trans hmore⟩

/-- Every call but one that sets a label aside takes the labels that it is said to take. -/
theorem perform_takes {call : Call} (h : call.reserved = []) :
    p.Takes (p.perform call).2 (p.taken call) := by
  have htaken : ∀ {labels}, p.Takes (p.perform call).2 labels → p.taken call = labels := by
    intro labels hlabels
    cases call with
    | reserve label => simp [Call.reserved] at h
    | _ => simp [taken, hlabels.used_eq]
  obtain ⟨labels, hlabels⟩ : ∃ labels, p.Takes (p.perform call).2 labels := by
    cases call with
    | reserve label => simp [Call.reserved] at h
    | freshLabel table => exact ⟨_, Takes.of_freshLabel p table⟩
    | relation model label name kind => exact p.addRelation_takes model label name kind
    | manyToMany model label name kind => exact p.addManyToMany_takes model label name kind
    | path model label kind relations => exact p.addPath_takes model label kind relations
  exact htaken hlabels ▸ hlabels

theorem perform_used (call : Call) {label : String}
    (h : label ∈ p.used ∨ label ∈ call.reserved ∨ label ∈ p.taken call) :
    label ∈ (p.perform call).2.used := by
  by_cases hreserved : call.reserved = []
  · rw [(p.perform_takes hreserved).mem_used]
    rcases h with h | h | h
    · exact Or.inr h
    · simp [hreserved] at h
    · exact Or.inl h
  · cases call with
    | reserve reserved =>
      rcases h with h | h | h
      · exact (p.reserve_reserves reserved).used label h
      · obtain rfl := List.mem_singleton.mp h
        unfold perform reserve
        dsimp only
        split_ifs with hused
        · exact hused
        · exact List.mem_cons_self
      · simp [taken] at h
    | _ => exact absurd rfl hreserved

/-- Whatever has been set aside or taken in a run stays in use. -/
theorem run_used (calls : List Call) {label : String}
    (h : label ∈ p.used ∨ label ∈ calls.flatMap Call.reserved ∨ label ∈ p.takenInRun calls) :
    label ∈ (p.run calls).used := by
  induction calls generalizing p with
  | nil => simpa [takenInRun, run] using h
  | cons call rest ih =>
    rw [List.flatMap_cons, takenInRun, List.mem_append, List.mem_append] at h
    refine ih _ ?_
    rcases h with h | (h | h) | h | h
    · exact Or.inl (p.perform_used call (Or.inl h))
    · exact Or.inl (p.perform_used call (Or.inr (Or.inl h)))
    · exact Or.inr (Or.inl h)
    · exact Or.inl (p.perform_used call (Or.inr (Or.inr h)))
    · exact Or.inr (Or.inr h)

end

/-- The labels that a call takes after any other calls have no underscore and are told apart from
one another, from that of the root, and from all labels that were set aside or taken before. Among
them are the label that the call asks for, and those of the joins that it adds. -/
theorem taken_after_run (registry : Registry) (root : String) (before : List Call) (call : Call) :
    let p := (start registry root).run before
    (∀ table, p.taken (.freshLabel table) = [(p.freshLabel table).1]) ∧
    (∃ added, (p.perform call).2.joins = p.joins ++ added ∧
      (added.map Join.label).Sublist (p.taken call)) ∧
    (p.taken call).Nodup ∧
    ∀ label ∈ p.taken call, label ≠ root ∧ label ∉ before.flatMap Call.reserved ∧
      label ∉ (start registry root).takenInRun before ∧ '_' ∉ label.toList := by
  intro p
  have hfresh : ∀ table, p.taken (.freshLabel table) = [(p.freshLabel table).1] := by
    intro table
    simp [taken, perform, (Takes.of_freshLabel p table).used_eq]
  by_cases hreserved : call.reserved = []
  · have htakes := p.perform_takes hreserved
    have hused : ∀ label ∈ p.taken call, label ∉ p.used := htakes.not_used
    refine ⟨hfresh, htakes.joins_eq, htakes.nodup, fun label hlabel => ⟨?_, ?_, ?_, ?_⟩⟩
    · rintro rfl
      exact hused label hlabel (run_start_consistent registry label before).root_used
    · intro h
      exact hused label hlabel (run_used _ before (Or.inr (Or.inl h)))
    · intro h
      exact hused label hlabel (run_used _ before (Or.inr (Or.inr h)))
    · exact htakes.no_underscore label hlabel
  · cases call with
    | reserve label => exact ⟨hfresh, ⟨[], (List.append_nil _).symm, List.nil_sublist _⟩,
        List.nodup_nil, by simp [taken]⟩
    | _ => exact absurd rfl hreserved

/-- A blog in which the drafts of users cannot be joined: their posts have no such field. -/
def draftRegistry : Registry := Registry.blog.register {
  name := "User", table := "users"
  fields := [{ name := "id", primaryKey := true }]
  relations := [("posts", { kind := .oneToMany, model := "Post", foreignKey := "author" }),
    ("drafts", { kind := .oneToMany, model := "Post", foreignKey := "writer" })] }

/-- A label is set aside, and another one is taken in vain. -/
def draftCalls : List Call := [.reserve "p", .relation "User" "u" "drafts" .left]

theorem taken_after_run_drafts :
    let p := (start draftRegistry "u").run draftCalls
    (start draftRegistry "u").takenInRun draftCalls = ["p2"] ∧
    p.taken (.path "User" "u" .left ["posts", "tags"]) = ["p3", "pt", "t"] ∧
    "p3" ≠ "u" ∧ "p3" ∉ draftCalls.flatMap Call.reserved ∧
    "p3" ∉ (start draftRegistry "u").takenInRun draftCalls ∧ '_' ∉ "p3".toList := by
  intro p
  have htaken : p.taken (.path "User" "u" .left ["posts", "tags"]) = ["p3", "pt", "t"] := by
    decide +kernel
  obtain ⟨-, -, -, hnew⟩ := taken_after_run draftRegistry "u" draftCalls
    (.path "User" "u" .left ["posts", "tags"])
  exact ⟨by decide +kernel, htaken, hnew "p3" (htaken ▸ List.mem_cons_self)⟩

end RelMap.Planner
