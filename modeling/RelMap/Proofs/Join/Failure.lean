import RelMap.Proofs.Join.Allocation
import RelMap.Proofs.Join.Follow

/-!
Calls of a planner that fail. They leave the joins and the paths as they are, and at most set labels
aside. The one exception is a many-to-many relation to a field that its model does not have: the
table between both models is joined before the field is looked up, and stays behind.
-/
namespace RelMap

theorem Model.columnName_eq_error {m : Model} {name : String} {e : Error}
    (h : m.columnName name = .error e) : m.field? name = none := by
  unfold columnName at h
  split at h
  · cases h
  · assumption

namespace Planner

variable {p q : Planner} {source target : Model} {r : Relation} {model label name path : String}
  {kind : JoinKind} {e : Error}

theorem Reserves.refl (p : Planner) : p.Reserves p := ⟨rfl, rfl, rfl, rfl, fun _ h => h⟩

/-- A many-to-many relation that leads from a model to a field that the other model does not
have. -/
def Strands (p : Planner) (model name : String) : Prop :=
  ∃ source r target, declaration p.registry model name = .ok (source, r) ∧
    r.kind = .manyToMany ∧ r.model ≠ model ∧ p.registry.model r.model = .ok target ∧
    source.field? source.primaryKeyName ≠ none ∧
    target.field? (r.references.getD target.primaryKeyName) = none

theorem strands_iff (h : declaration p.registry model name = .ok (source, r)) :
    p.Strands model name ↔ ∃ target, r.kind = .manyToMany ∧ r.model ≠ model ∧
      p.registry.model r.model = .ok target ∧ source.field? source.primaryKeyName ≠ none ∧
      target.field? (r.references.getD target.primaryKeyName) = none := by
  constructor
  · rintro ⟨source', r', target, hdecl, hstrands⟩
    obtain ⟨rfl, rfl⟩ := Prod.mk.inj (Except.ok.inj (hdecl.symm.trans h))
    exact ⟨target, hstrands⟩
  · rintro ⟨target, hstrands⟩
    exact ⟨source, r, target, h, hstrands⟩

theorem not_strands_of_declaration (h : declaration p.registry model name = .error e) :
    ¬p.Strands model name := by
  rintro ⟨source, r, target, hdecl, -⟩
  rw [h] at hdecl
  cases hdecl

/-- What a failed call does to a planner. -/
inductive Fails (p q : Planner) (model name : String) : Prop where
  | unchanged (hwhole : ¬p.Strands model name) (hreserves : p.Reserves q)
  | stranded (hstrands : p.Strands model name) {junction : Join}
      (hjunction : junction.isJunction = true) (hjoins : q.joins = p.joins ++ [junction])
      (hpaths : q.paths = p.paths)

theorem addDirect_failed (h : p.addDirect source target r label name path kind = (.error e, q)) :
    p.Reserves q := by
  have hr := p.freshLabel_reserves target.table
  unfold addDirect at h
  dsimp only at h
  split at h
  · obtain ⟨-, rfl⟩ := Prod.mk.inj h
    exact hr
  · simp at h

theorem addJunction_failed
    (h : p.addJunction source r model label name path kind = (.error e, q)) :
    p.Reserves q ∧ source.field? source.primaryKeyName = none := by
  have hr := p.freshLabel_reserves (Naming.junctionTable model r.model)
  unfold addJunction at h
  dsimp only at h
  split at h
  · next hcolumn =>
    obtain ⟨-, rfl⟩ := Prod.mk.inj h
    exact ⟨hr, Model.columnName_eq_error hcolumn⟩
  · simp at h

theorem addFarSide_failed {junctionLabel : String}
    (h : p.addFarSide target r junctionLabel label name path kind = (.error e, q)) :
    p.Reserves q ∧ target.field? (r.references.getD target.primaryKeyName) = none := by
  have hr := p.freshLabel_reserves target.table
  unfold addFarSide at h
  dsimp only at h
  split at h
  · next hcolumn =>
    obtain ⟨-, rfl⟩ := Prod.mk.inj h
    exact ⟨hr, Model.columnName_eq_error hcolumn⟩
  · simp at h

theorem addManyToMany_fails (h : p.addManyToMany model label name kind = (.error e, q)) :
    p.Fails q model name := by
  unfold addManyToMany at h
  dsimp only at h
  split at h
  · simp at h
  split at h
  · next hdecl =>
    obtain ⟨-, rfl⟩ := Prod.mk.inj h
    exact .unchanged (not_strands_of_declaration hdecl) (.refl p)
  next source r hdecl =>
  split_ifs at h with hkind hself
  · obtain ⟨-, rfl⟩ := Prod.mk.inj h
    exact .unchanged (by simp [strands_iff hdecl, hkind]) (.refl p)
  · obtain ⟨-, rfl⟩ := Prod.mk.inj h
    exact .unchanged (by simp [strands_iff hdecl, hself]) (.refl p)
  split at h
  · next htarget =>
    obtain ⟨-, rfl⟩ := Prod.mk.inj h
    exact .unchanged (by simp [strands_iff hdecl, htarget]) (.refl p)
  next target htarget =>
  split at h
  · next hjunction =>
    obtain ⟨-, rfl⟩ := Prod.mk.inj h
    obtain ⟨hreserves, hkey⟩ := addJunction_failed hjunction
    exact .unchanged (by simp [strands_iff hdecl, hkey]) hreserves
  · next junctionLabel p' hjunction =>
    obtain ⟨key, hkey, -, -, hpaths, hjoins⟩ := addJunction_eq_ok hjunction
    obtain ⟨hreserves, hfield⟩ := addFarSide_failed h
    have hstrands : p.Strands model name := (strands_iff hdecl).mpr
      ⟨target, not_not.mp hkind, hself, htarget, by simp [hkey], hfield⟩
    exact .stranded hstrands rfl (hreserves.joins_eq.trans hjoins) (hreserves.paths_eq.trans hpaths)

theorem addRelation_fails (h : p.addRelation model label name kind = (.error e, q)) :
    p.Fails q model name := by
  unfold addRelation at h
  dsimp only at h
  split at h
  · simp at h
  split at h
  · next hdecl =>
    obtain ⟨-, rfl⟩ := Prod.mk.inj h
    exact .unchanged (not_strands_of_declaration hdecl) (.refl p)
  next source r hdecl =>
  split_ifs at h with hkind
  · exact addManyToMany_fails h
  split at h
  · next htarget =>
    obtain ⟨-, rfl⟩ := Prod.mk.inj h
    exact .unchanged (by simp [strands_iff hdecl, hkind]) (.refl p)
  · exact .unchanged (by simp [strands_iff hdecl, hkind]) (addDirect_failed h)

theorem Fails.labelAt?_eq (h : p.Fails q model name) (path : String) :
    q.labelAt? path = p.labelAt? path := by
  cases h with
  | unchanged _ hreserves => exact hreserves.labelAt?_eq path
  | stranded _ _ _ hpaths => rw [labelAt?, labelAt?, hpaths]

theorem Fails.joins_eq_iff (h : p.Fails q model name) :
    q.joins = p.joins ↔ ¬p.Strands model name := by
  cases h with
  | unchanged hwhole hreserves => exact iff_of_true hreserves.joins_eq hwhole
  | stranded hstrands _ hjoins _ => exact iff_of_false (by simp [hjoins]) (not_not.mpr hstrands)

/-- A call that fails to follow a relation leaves no trace in the statement, but exactly those do
that strand on the far side of a many-to-many relation. Not even these change where a path ends. -/
theorem perform_failed {call : Call}
    (hcall : call ∈ [.relation model label name kind, .manyToMany model label name kind])
    (h : p.perform call = (.error e, q)) :
    (∀ path, q.labelAt? path = p.labelAt? path) ∧
      (q.joins = p.joins ∧ (∀ d, q.sql d = p.sql d) ↔ ¬p.Strands model name) := by
  have hfails : p.Fails q model name := by
    simp only [List.mem_cons, List.not_mem_nil, or_false] at hcall
    rcases hcall with rfl | rfl
    · exact addRelation_fails h
    · exact addManyToMany_fails h
  refine ⟨hfails.labelAt?_eq, fun hsame => hfails.joins_eq_iff.mp hsame.1, fun hwhole => ?_⟩
  have hjoins := hfails.joins_eq_iff.mpr hwhole
  exact ⟨hjoins, fun d => by rw [sql, sql, hjoins]⟩

/-- A blog whose users cannot be joined with their drafts, nor posts with the labels of tags. -/
def brokenRegistry : Registry := draftRegistry.register {
  name := "Post", table := "posts"
  fields := [{ name := "id", primaryKey := true }, { name := "author", column := some "user_id" }]
  relations := [("tags", { kind := .manyToMany, model := "Tag", references := some "label" })] }

/-- The drafts of users come to nothing after their posts are joined. -/
theorem perform_failed_drafts :
    let p := (start brokenRegistry "u").run [.relation "User" "u" "posts" .left]
    p.joins.map Join.label = ["p"] ∧
    ∃ e q, p.perform (.relation "User" "u" "drafts" .left) = (.error e, q) ∧ q.joins = p.joins ∧
      ∀ d, q.sql d = p.sql d := by
  intro p
  have hwhole : ¬p.Strands "User" "drafts" := by
    rw [strands_iff (by rfl)]
    rintro ⟨_, hkind, -⟩
    cases hkind
  have hanswer : (p.perform (.relation "User" "u" "drafts" .left)).1.toOption = none := by
    decide +kernel
  refine ⟨by decide +kernel, ?_⟩
  cases hcall : p.perform (.relation "User" "u" "drafts" .left) with
  | mk answer q =>
    cases answer with
    | ok label => simp [hcall, Except.toOption] at hanswer
    | error e =>
      obtain ⟨hjoins, hsql⟩ := (perform_failed List.mem_cons_self hcall).2.mpr hwhole
      exact ⟨e, q, rfl, hjoins, hsql⟩

/-- The table between posts and tags stays behind. -/
theorem perform_leaves_junction :
    let p := (start brokenRegistry "p").perform (.manyToMany "Post" "p" "tags" .left)
    p.1.toOption = none ∧ (start brokenRegistry "p").sql .sqlite = "" ∧
      p.2.sql .sqlite = "LEFT JOIN `post_tags` AS `pt` ON `p`.`id` = `pt`.`posts_id`" := by
  decide +kernel

end Planner
end RelMap
