import RelMap.Proofs.Join.Label
import RelMap.Proofs.Schema.Model

/-! Runs of a planner. Whatever it is asked for, and whether or not it can do it, its labels stay
apart and its paths fit the joins that they name. -/
namespace RelMap

/-- What holds between a join and a later one of the same planner. -/
structure Join.Precedes (a b : Join) : Prop where
  label_ne : a.label ≠ b.label
  path_ne : a.isJunction = false → b.isJunction = false → a.path ≠ b.path
  path_eq : a.isJunction = false → b.isJunction = false → a.label = b.parent →
    b.path = a.path ++ "." ++ b.relationName

namespace Planner

/-- Everything that a planner can be asked for. -/
inductive Call where
  | reserve (label : String)
  | freshLabel (table : String)
  | relation (model label name : String) (kind : JoinKind)
  | manyToMany (model label name : String) (kind : JoinKind)
  | path (model label : String) (kind : JoinKind) (relations : List String)

/-- The answer to a call and the planner after it. -/
def perform (p : Planner) : Call → Except Error String × Planner
  | .reserve label => (.ok label, p.reserve label)
  | .freshLabel table => (.ok (p.freshLabel table).1, (p.freshLabel table).2)
  | .relation model label name kind => p.addRelation model label name kind
  | .manyToMany model label name kind => p.addManyToMany model label name kind
  | .path model label kind relations => p.addPath model label kind relations

/-- The planner after calls in this order. A call that fails does not end the run. -/
def run (p : Planner) (calls : List Call) : Planner :=
  calls.foldl (fun p call => (p.perform call).2) p

theorem perform_eq_ok_of_toOption {p : Planner} {call : Call} {label : String}
    (h : (p.perform call).1.toOption = some label) :
    p.perform call = (.ok label, (p.perform call).2) := by
  refine Prod.ext ?_ rfl
  cases hanswer : (p.perform call).1 with
  | error e => simp [hanswer, Except.toOption] at h
  | ok answer => simpa [hanswer, Except.toOption] using h

/-- Labels are in use, unlike one another, and made as labels are made; the paths remembered are
those of the joins, and each continues the path of the join that it leads from. -/
structure Consistent (root : String) (p : Planner) : Prop where
  rootLabel_eq : p.rootLabel = root
  root_used : root ∈ p.used
  label_used : ∀ j ∈ p.joins, j.label ∈ p.used
  label_ne_root : ∀ j ∈ p.joins, j.label ≠ root
  label_eq : ∀ j ∈ p.joins, ∃ n, j.label = Label.candidate (Label.base j.table) n
  root_path : ∀ j ∈ p.joins, j.isJunction = false → j.parent = root →
    j.path = j.relationName
  precedes : p.joins.Pairwise Join.Precedes
  labelAt?_iff : ∀ path label, p.labelAt? path = some label ↔
    ∃ j ∈ p.joins, j.isJunction = false ∧ j.path = path ∧ j.label = label

/-- A path that leads from the table with this label over this relation. -/
structure Continues (p : Planner) (path label name : String) : Prop where
  of_root : label = p.rootLabel → path = name
  of_join : ∀ a ∈ p.joins, a.isJunction = false → a.label = label → path = a.path ++ "." ++ name

/-- A planner with the same joins and paths, in which no more than further labels are set
aside. -/
structure Reserves (p q : Planner) : Prop where
  registry_eq : q.registry = p.registry
  root_eq : q.rootLabel = p.rootLabel
  joins_eq : q.joins = p.joins
  paths_eq : q.paths = p.paths
  used : ∀ label ∈ p.used, label ∈ q.used

theorem reserve_reserves (p : Planner) (label : String) : p.Reserves (p.reserve label) := by
  refine ⟨rfl, rfl, rfl, rfl, fun l hl => ?_⟩
  simp only [reserve]
  split_ifs
  · exact hl
  · exact List.mem_cons_of_mem label hl

theorem freshLabel_reserves (p : Planner) (table : String) :
    p.Reserves (p.freshLabel table).2 :=
  ⟨rfl, rfl, rfl, rfl, fun _ hl => List.mem_cons_of_mem _ hl⟩

theorem freshLabel_used (p : Planner) (table : String) :
    (p.freshLabel table).1 ∈ (p.freshLabel table).2.used := List.mem_cons_self

theorem freshLabel_not_used (p : Planner) (table : String) :
    (p.freshLabel table).1 ∉ p.used :=
  Label.candidate_firstFree_not_mem _ _ (Nat.succ_pos _)

theorem freshLabel_eq (p : Planner) (table : String) :
    ∃ n, (p.freshLabel table).1 = Label.candidate (Label.base table) n := ⟨_, rfl⟩

namespace Reserves

variable {root : String} {p q : Planner} (hr : p.Reserves q)
include hr

theorem labelAt?_eq (path : String) : q.labelAt? path = p.labelAt? path := by
  rw [labelAt?, labelAt?, hr.paths_eq]

theorem consistent (h : p.Consistent root) : q.Consistent root where
  rootLabel_eq := hr.root_eq.trans h.rootLabel_eq
  root_used := hr.used _ h.root_used
  label_used := fun j hj => hr.used _ (h.label_used j (hr.joins_eq ▸ hj))
  label_ne_root := by rw [hr.joins_eq]; exact h.label_ne_root
  label_eq := by rw [hr.joins_eq]; exact h.label_eq
  root_path := by rw [hr.joins_eq]; exact h.root_path
  precedes := by rw [hr.joins_eq]; exact h.precedes
  labelAt?_iff := fun path label => by
    rw [hr.labelAt?_eq, hr.joins_eq]
    exact h.labelAt?_iff path label

theorem continues {path label name : String} (h : p.Continues path label name) :
    q.Continues path label name :=
  ⟨hr.root_eq ▸ h.of_root, hr.joins_eq ▸ h.of_join⟩

end Reserves

theorem Consistent.labels {root : String} {p : Planner} (h : p.Consistent root) :
    p.joins.Pairwise fun a b => a.label ≠ b.label :=
  h.precedes.imp fun hab => hab.label_ne

theorem Consistent.continues_pathFrom {root : String} {p : Planner} (h : p.Consistent root)
    (label name : String) : p.Continues (p.pathFrom label name) label name := by
  constructor
  · intro hl
    rw [pathFrom, if_pos hl]
  · intro a ha _ hl
    have hne : label ≠ p.rootLabel := h.rootLabel_eq ▸ hl ▸ h.label_ne_root a ha
    rw [pathFrom, if_neg hne, ← hl, find?_of_nodup_map (List.pairwise_map.mpr h.labels) ha]

theorem start_consistent (registry : Registry) (rootLabel : String) :
    (start registry rootLabel).Consistent rootLabel where
  rootLabel_eq := rfl
  root_used := by simp [start, reserve]
  label_used := by simp [start, reserve]
  label_ne_root := by simp [start, reserve]
  label_eq := by simp [start, reserve]
  root_path := by simp [start, reserve]
  precedes := List.Pairwise.nil
  labelAt?_iff := by simp [start, reserve, labelAt?, OrderedMap.find?]

/-- A join whose label is set aside for it. -/
structure Fresh (p : Planner) (j : Join) : Prop where
  used : j.label ∈ p.used
  ne_root : j.label ≠ p.rootLabel
  ne_label : ∀ a ∈ p.joins, a.label ≠ j.label
  label_eq : ∃ n, j.label = Label.candidate (Label.base j.table) n

theorem Consistent.fresh {root : String} {p : Planner} (h : p.Consistent root) (table : String)
    {j : Join} (ht : j.table = table) (hj : j.label = (p.freshLabel table).1) :
    (p.freshLabel table).2.Fresh j where
  used := hj ▸ p.freshLabel_used table
  ne_root := fun he => p.freshLabel_not_used table
    (hj ▸ he.trans h.rootLabel_eq ▸ h.root_used)
  ne_label := fun a ha he => p.freshLabel_not_used table (hj ▸ he ▸ h.label_used a ha)
  label_eq := by rw [ht, hj]; exact p.freshLabel_eq table

/-- A join with a fresh label can follow the joins of a planner. Unless it is a junction, its
path has to be a new one that continues the path of its parent. -/
theorem Consistent.extend {root : String} {p q : Planner} (h : p.Consistent root) {j : Join}
    (hf : p.Fresh j)
    (hpath : j.isJunction = false → p.labelAt? j.path = none ∧
      p.Continues j.path j.parent j.relationName)
    (hroot : q.rootLabel = p.rootLabel) (hjoins : q.joins = p.joins ++ [j])
    (hused : q.used = p.used)
    (hmemo : ∀ path label, q.labelAt? path = some label ↔
      p.labelAt? path = some label ∨ j.isJunction = false ∧ j.path = path ∧ j.label = label) :
    q.Consistent root where
  rootLabel_eq := hroot.trans h.rootLabel_eq
  root_used := by rw [hused]; exact h.root_used
  label_used := by
    rw [hjoins, hused]
    simpa [or_imp, forall_and] using ⟨h.label_used, hf.used⟩
  label_ne_root := by
    rw [hjoins]
    simpa [or_imp, forall_and] using ⟨h.label_ne_root, h.rootLabel_eq ▸ hf.ne_root⟩
  label_eq := by
    rw [hjoins]
    simpa [or_imp, forall_and] using ⟨h.label_eq, hf.label_eq⟩
  root_path := by
    rw [hjoins]
    have hlast : j.isJunction = false → j.parent = root → j.path = j.relationName :=
      fun hj hp => (hpath hj).2.of_root (hp.trans h.rootLabel_eq.symm)
    simpa [or_imp, forall_and] using ⟨h.root_path, hlast⟩
  precedes := by
    rw [hjoins, List.pairwise_append]
    refine ⟨h.precedes, List.pairwise_singleton _ j, fun a ha b hb => ?_⟩
    obtain rfl := List.mem_singleton.mp hb
    refine ⟨hf.ne_label a ha, fun ha' hb' he => ?_, fun ha' hb' he => ?_⟩
    · have hsome := (h.labelAt?_iff a.path a.label).mpr ⟨a, ha, ha', rfl, rfl⟩
      rw [he, (hpath hb').1] at hsome
      exact absurd hsome (by simp)
    · exact (hpath hb').2.of_join a ha ha' he
  labelAt?_iff := fun path label => by
    rw [hmemo, h.labelAt?_iff, hjoins]
    simp [or_and_right, exists_or]

theorem Consistent.push {root : String} {p : Planner} (h : p.Consistent root) {j : Join}
    (hf : p.Fresh j) (hj : j.isJunction = true) : (p.push j).Consistent root :=
  h.extend hf (by simp [hj]) rfl rfl rfl fun path label => by
    rw [show (p.push j).labelAt? path = p.labelAt? path from rfl]
    simp [hj]

theorem Consistent.pushPath {root : String} {p : Planner} (h : p.Consistent root) {j : Join}
    (hf : p.Fresh j) (hj : j.isJunction = false) (hnew : p.labelAt? j.path = none)
    (hcont : p.Continues j.path j.parent j.relationName) : (p.pushPath j).Consistent root := by
  refine h.extend hf (fun _ => ⟨hnew, hcont⟩) rfl rfl rfl fun path label => ?_
  have hset : (p.pushPath j).labelAt? path =
      if j.path = path then some j.label else p.labelAt? path :=
    OrderedMap.find?_insert ..
  rw [hset]
  split_ifs with he
  · subst he; simp [hnew, hj]
  · simp [he]

/-- A junction changes nothing that a path could lead to. -/
theorem Continues.addJunction {p : Planner} {path label name : String}
    (hcont : p.Continues path label name) (hnew : p.labelAt? path = none) (source : Model)
    (r : Relation) (model : String) (kind : JoinKind) :
    (p.addJunction source r model label name path kind).2.labelAt? path = none ∧
      (p.addJunction source r model label name path kind).2.Continues path label name := by
  have hr := p.freshLabel_reserves (Naming.junctionTable model r.model)
  have hc := hr.continues hcont
  unfold Planner.addJunction
  dsimp only
  split
  · exact ⟨by rwa [hr.labelAt?_eq], hc⟩
  · refine ⟨by rwa [← hr.labelAt?_eq] at hnew, hc.of_root, fun a ha hj => ?_⟩
    rcases List.mem_append.mp ha with ha | ha
    · exact hc.of_join a ha hj
    · rw [List.mem_singleton.mp ha] at hj
      exact absurd hj (by simp [Join.isJunction])

section
variable {root : String} {p : Planner} (h : p.Consistent root)
include h

theorem Consistent.addDirect {source target : Model} {r : Relation} {label name path : String}
    {kind : JoinKind} (hnew : p.labelAt? path = none) (hcont : p.Continues path label name) :
    (p.addDirect source target r label name path kind).2.Consistent root := by
  have hr := p.freshLabel_reserves target.table
  unfold Planner.addDirect
  dsimp only
  split
  · exact hr.consistent h
  · refine (hr.consistent h).pushPath (h.fresh target.table rfl rfl) rfl ?_ (hr.continues hcont)
    rwa [hr.labelAt?_eq]

theorem Consistent.addFarSide {target : Model} {r : Relation}
    {junctionLabel label name path : String} {kind : JoinKind}
    (hnew : p.labelAt? path = none) (hcont : p.Continues path label name) :
    (p.addFarSide target r junctionLabel label name path kind).2.Consistent root := by
  have hr := p.freshLabel_reserves target.table
  unfold Planner.addFarSide
  dsimp only
  split
  · exact hr.consistent h
  · refine (hr.consistent h).pushPath (h.fresh target.table rfl rfl) rfl ?_ (hr.continues hcont)
    rwa [hr.labelAt?_eq]

theorem Consistent.addJunction (source : Model) (r : Relation)
    (model label name path : String) (kind : JoinKind) :
    (p.addJunction source r model label name path kind).2.Consistent root := by
  have hr := p.freshLabel_reserves (Naming.junctionTable model r.model)
  unfold Planner.addJunction
  dsimp only
  split
  · exact hr.consistent h
  · exact (hr.consistent h).push (h.fresh _ rfl rfl) rfl

theorem Consistent.addManyToMany (model label name : String) (kind : JoinKind) :
    (p.addManyToMany model label name kind).2.Consistent root := by
  unfold Planner.addManyToMany
  dsimp only
  split
  · exact h
  · next hnew =>
    split
    · exact h
    · next source r _ =>
      split_ifs
      · exact h
      · exact h
      · split
        · exact h
        · next target _ =>
          have hj := h.addJunction source r model label name (p.pathFrom label name) kind
          obtain ⟨hnone, hcont⟩ :=
            (h.continues_pathFrom label name).addJunction hnew source r model kind
          split
          · next e q hq =>
            rw [hq] at hj
            exact hj
          · next junctionLabel q hq =>
            rw [hq] at hj hnone hcont
            exact hj.addFarSide hnone hcont

theorem Consistent.addRelation (model label name : String) (kind : JoinKind) :
    (p.addRelation model label name kind).2.Consistent root := by
  unfold Planner.addRelation
  dsimp only
  split
  · exact h
  · next hnew =>
    split
    · exact h
    · split_ifs
      · exact h.addManyToMany model label name kind
      · split
        · exact h
        · exact h.addDirect hnew (h.continues_pathFrom label name)

theorem Consistent.addPath (model label : String) (kind : JoinKind) (relations : List String) :
    (p.addPath model label kind relations).2.Consistent root := by
  induction relations generalizing p model label with
  | nil => exact h
  | cons name rest ih =>
    unfold Planner.addPath
    split
    · exact h
    · split_ifs
      · exact h
      · have hr := h.addRelation model label name kind
        split
        · next e q hq => rw [hq] at hr; exact hr
        · next target q hq => rw [hq] at hr; exact ih hr _ _

theorem Consistent.perform (call : Call) : (p.perform call).2.Consistent root := by
  cases call with
  | reserve label => exact (p.reserve_reserves label).consistent h
  | freshLabel table => exact (p.freshLabel_reserves table).consistent h
  | relation model label name kind => exact h.addRelation model label name kind
  | manyToMany model label name kind => exact h.addManyToMany model label name kind
  | path model label kind relations => exact h.addPath model label kind relations

theorem Consistent.run (calls : List Call) : (p.run calls).Consistent root := by
  induction calls generalizing p with
  | nil => exact h
  | cons call rest ih => exact ih (h.perform call)

end

/-- Every planner that a run can lead to is consistent. -/
theorem run_start_consistent (registry : Registry) (rootLabel : String) (calls : List Call) :
    ((start registry rootLabel).run calls).Consistent rootLabel :=
  (start_consistent registry rootLabel).run calls

end Planner

/-- Posts of users, and tags of posts by way of a table between both. -/
def Registry.blog : Registry := .ofModels [
  { name := "User", table := "users"
    fields := [{ name := "id", primaryKey := true }]
    relations := [("posts", { kind := .oneToMany, model := "Post", foreignKey := "author" })] },
  { name := "Post", table := "posts"
    fields := [{ name := "id", primaryKey := true }, { name := "author", column := some "user_id" }]
    relations := [("tags", { kind := .manyToMany, model := "Tag" })] },
  { name := "Tag", table := "tags", fields := [{ name := "id", primaryKey := true }] }]

end RelMap
