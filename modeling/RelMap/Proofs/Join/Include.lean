import Mathlib.Data.List.Infix
import RelMap.Proofs.FirstSeen
import RelMap.Proofs.Join.Follow
import RelMap.Proofs.Pointwise
import RelMap.Query.Basic

/-! The joins of included paths: those of each path of relations that an include begins with, in
the order in which these paths are first met. -/
namespace RelMap

/-- The paths of relations that the includes of a query begin with, in the order in which the
includes lead along them. -/
def Query.visitedPaths (q : Query) : List (List String) :=
  (OrderedMap.keys q.includes).flatMap fun path => (Planner.segments path).inits.tail

/-- The paths of relations that the includes of a query begin with, each once, in the order in
which they are first met. -/
def Query.includedPaths (q : Query) : List (List String) := q.visitedPaths.eraseDups

/-- How a path is followed depends on no labels but those at its end and before its last
relation. -/
theorem Join.Reaches.congr {g : Registry} {root : String} {kind : JoinKind}
    {label label' : List String → String} {relations : List String} {joins : List Join}
    (h : Join.Reaches g root kind label relations joins)
    (hlast : label' relations = label relations)
    (hbefore : label' relations.dropLast = label relations.dropLast) :
    Join.Reaches g root kind label' relations joins := by
  obtain ⟨before, name, sourceName, source, r, target, rfl, hreached, hsource, hr, htarget,
    hfollows⟩ := h
  rw [List.dropLast_concat] at hbefore
  refine ⟨before, name, sourceName, source, r, target, rfl, hreached, hsource, hr, htarget, ?_⟩
  rwa [hlast, hbefore]

namespace Planner

/-- The label at the end of a path of relations from the root. -/
def labelOf (p : Planner) (relations : List String) : String :=
  if relations = [] then p.rootLabel else (p.labelAt? (dotted relations)).getD ""

/-- A planner that has been led along the paths `seen`, in this order. Every path is seen after
the one without its last relation. -/
structure Covers (g : Registry) (root rootLabel : String) (kind : JoinKind)
    (seen : List (List String)) (p : Planner) : Prop where
  consistent : p.Consistent rootLabel
  registry_eq : p.registry = g
  joins_eq : ∃ groups, p.joins = groups.flatten ∧
    List.Forall₂ (Join.Reaches g root kind p.labelOf) seen.eraseDups groups
  closed : ∀ w ∈ seen, w ≠ [] ∧ (∀ r ∈ w, '.' ∉ r.toList) ∧ (w.dropLast = [] ∨ w.dropLast ∈ seen)
  allLookBack : Join.AllLookBack rootLabel p.joins

theorem start_covers (g : Registry) (root rootLabel : String) (kind : JoinKind) :
    (start g rootLabel).Covers g root rootLabel kind [] where
  consistent := start_consistent g rootLabel
  registry_eq := rfl
  joins_eq := ⟨[], rfl, List.Forall₂.nil⟩
  closed := by simp
  allLookBack := fun before j after h => by simp [start, reserve] at h

namespace Covers

variable {g : Registry} {root rootLabel : String} {kind : JoinKind} {seen : List (List String)}
  {p q : Planner} (hc : p.Covers g root rootLabel kind seen)
include hc

theorem exists_join {w : List String} (hw : w ∈ seen) :
    ∃ j ∈ p.joins, j.isJunction = false ∧ j.path = dotted w ∧ j.label = p.labelOf w := by
  obtain ⟨groups, hjoins, hgroups⟩ := hc.joins_eq
  obtain ⟨group, hgroup, before, name, sourceName, source, r, target, -, -, -, -, -, hfollows⟩ :=
    exists_right_of_forall₂ hgroups (List.mem_eraseDups.mpr hw)
  obtain ⟨j, hj, hend⟩ := hfollows.exists_end
  exact ⟨j, hjoins ▸ List.mem_flatten_of_mem hgroup hj, hend⟩

theorem exists_reaches {j : Join} (hj : j ∈ p.joins) :
    ∃ w ∈ seen, ∃ group, j ∈ group ∧ Join.Reaches g root kind p.labelOf w group := by
  obtain ⟨groups, hjoins, hgroups⟩ := hc.joins_eq
  obtain ⟨group, hgroup, hmem⟩ := List.mem_flatten.mp (hjoins ▸ hj)
  obtain ⟨w, hw, hreaches⟩ := exists_left_of_forall₂ hgroups hgroup
  exact ⟨w, List.mem_eraseDups.mp hw, group, hmem, hreaches⟩

theorem path_eq_dotted {j : Join} (hj : j ∈ p.joins) (hjunction : j.isJunction = false) :
    ∃ w ∈ seen, j.path = dotted w := by
  obtain ⟨w, hw, group, hmem, before, name, sourceName, source, r, target, -, -, -, -, -,
    hfollows⟩ := hc.exists_reaches hj
  exact ⟨w, hw, (hfollows.eq_end hmem hjunction).1⟩

/-- A joined table that is no junction is that of a registered model. -/
theorem exists_target {j : Join} (hj : j ∈ p.joins) (hjunction : j.isJunction = false) :
    ∃ (r : Relation) (target : Model), j.model = some r.model ∧ j.relation = some r ∧
      g.model r.model = .ok target ∧ j.table = target.table := by
  obtain ⟨w, hw, group, hmem, before, name, sourceName, source, r, target, -, -, -, -, htarget,
    hfollows⟩ := hc.exists_reaches hj
  obtain ⟨-, htable, hmodel, hrelation⟩ := hfollows.eq_end hmem hjunction
  exact ⟨r, target, hmodel, hrelation, htarget, htable⟩

theorem pathFrom_labelOf {w : List String} (hw : w = [] ∨ w ∈ seen) (name : String) :
    p.pathFrom (p.labelOf w) name = dotted (w ++ [name]) := by
  have hcont := hc.consistent.continues_pathFrom (p.labelOf w) name
  rcases hw with rfl | hw
  · exact hcont.of_root rfl
  · obtain ⟨j, hj, hjunction, hpath, hlabel⟩ := hc.exists_join hw
    rw [hcont.of_join j hj hjunction hlabel, hpath, dotted_concat (hc.closed w hw).1]

theorem labelAt?_eq_none_iff {w : List String} (hne : w ≠ []) (hdot : ∀ r ∈ w, '.' ∉ r.toList) :
    p.labelAt? (dotted w) = none ↔ w ∉ seen := by
  constructor
  · intro hnone hw
    obtain ⟨j, hj, hjunction, hpath, -⟩ := hc.exists_join hw
    have := (hc.consistent.labelAt?_iff (dotted w) j.label).mpr ⟨j, hj, hjunction, hpath, rfl⟩
    simp [hnone] at this
  · intro hw
    rw [Option.eq_none_iff_forall_ne_some]
    intro label hlabel
    obtain ⟨j, hj, hjunction, hpath, -⟩ := (hc.consistent.labelAt?_iff (dotted w) label).mp hlabel
    obtain ⟨v, hv, hvpath⟩ := hc.path_eq_dotted hj hjunction
    obtain ⟨hvne, hvdot, -⟩ := hc.closed v hv
    exact hw (dotted_inj hvne hne hvdot hdot (hvpath.symm.trans hpath) ▸ hv)

/-- The table at the end of a path that is seen is the root or joined. -/
theorem labelOf_mem {w : List String} (hw : w = [] ∨ w ∈ seen) :
    p.labelOf w = rootLabel ∨
      ∃ a ∈ p.joins, a.isJunction = false ∧ a.label = p.labelOf w := by
  rcases hw with rfl | hw
  · exact Or.inl hc.consistent.rootLabel_eq
  · obtain ⟨j, hj, hjunction, -, hlabel⟩ := hc.exists_join hw
    exact Or.inr ⟨j, hj, hjunction, hlabel⟩

theorem dots {w : List String} (hw : w = [] ∨ w ∈ seen) : ∀ r ∈ w, '.' ∉ r.toList := by
  rcases hw with rfl | hw
  · simp
  · exact (hc.closed w hw).2.1

theorem closed_concat {v : List String} {name : String} (hv : v = [] ∨ v ∈ seen)
    (hdot : '.' ∉ name.toList) : ∀ w ∈ seen ++ [v ++ [name]], w ≠ [] ∧
      (∀ r ∈ w, '.' ∉ r.toList) ∧ (w.dropLast = [] ∨ w.dropLast ∈ seen ++ [v ++ [name]]) := by
  intro w hw
  rcases List.mem_append.mp hw with hw | hw
  · obtain ⟨hne, hdots, hlast⟩ := hc.closed w hw
    exact ⟨hne, hdots, hlast.imp_right (List.mem_append_left _)⟩
  · rw [List.mem_singleton.mp hw, List.dropLast_concat]
    refine ⟨by simp, fun r hr => ?_, hv.imp_right (List.mem_append_left _)⟩
    rcases List.mem_append.mp hr with hr | hr
    · exact hc.dots hv r hr
    · rwa [List.mem_singleton.mp hr]

/-- A call that adds a path changes no label at the end of another one. -/
theorem labelOf_adds {v : List String} {model label name target : String}
    (hv : v = [] ∨ v ∈ seen) (hdot : '.' ∉ name.toList)
    (ha : p.Adds q kind model label name (dotted (v ++ [name])) target)
    {w : List String} (hw : w = [] ∨ w ∈ seen) (hne : w ≠ v ++ [name]) :
    q.labelOf w = p.labelOf w := by
  unfold labelOf
  split_ifs with h
  · exact ha.root_eq
  · have hseen := hw.resolve_left h
    have hd : dotted (v ++ [name]) ≠ dotted w := fun he =>
      hne (dotted_inj (by simp) h
        (hc.closed_concat hv hdot (v ++ [name]) (by simp)).2.1 (hc.dots hw) he).symm
    rw [labelAt?, labelAt?, ha.paths_eq, OrderedMap.find?_insert, if_neg hd]

/-- A planner to which the joins of one more path have been added covers this path too. -/
theorem of_adds {v : List String} {sourceName name label : String} (hv : v = [] ∨ v ∈ seen)
    (hdot : '.' ∉ name.toList) (hsource : g.reached root v = .ok sourceName)
    (hnot : v ++ [name] ∉ seen) (hconsistent : q.Consistent rootLabel)
    (ha : p.Adds q kind sourceName (p.labelOf v) name (dotted (v ++ [name])) label) :
    q.Covers g root rootLabel kind (seen ++ [v ++ [name]]) ∧
      q.labelOf (v ++ [name]) = label := by
  have hne : v ++ [name] ≠ [] := by simp
  have hvne : v ≠ v ++ [name] := by simp
  have hold : ∀ {w}, w = [] ∨ w ∈ seen → w ≠ v ++ [name] → q.labelOf w = p.labelOf w :=
    hc.labelOf_adds hv hdot ha
  have hnew : q.labelOf (v ++ [name]) = label := by
    rw [labelOf, if_neg hne, labelAt?, ha.paths_eq, OrderedMap.find?_insert, if_pos rfl,
      Option.getD_some]
  -- The labels of the paths seen before are as they were, at their ends and one relation earlier.
  have hkept : ∀ w group, w ∈ seen ∧ Join.Reaches g root kind p.labelOf w group →
      Join.Reaches g root kind q.labelOf w group := by
    rintro w group ⟨hw, hreaches⟩
    have hclosed := (hc.closed w hw).2.2
    refine hreaches.congr (hold (Or.inr hw) fun he => hnot (he ▸ hw)) (hold hclosed fun he => ?_)
    rcases hclosed with hnil | hlast
    · exact hne (he.symm.trans hnil)
    · exact hnot (he ▸ hlast)
  obtain ⟨groups, hjoins, hgroups⟩ := hc.joins_eq
  obtain ⟨source, r, next, joins, hmodel, hr, htarget, hfollows, hq⟩ := ha.joins_eq
  rw [hc.registry_eq] at hmodel htarget
  refine ⟨⟨hconsistent, ha.registry_eq.trans hc.registry_eq, ⟨groups ++ [joins], ?_, ?_⟩,
    hc.closed_concat hv hdot, ?_⟩, hnew⟩
  · rw [hq, hjoins, List.flatten_concat]
  · rw [eraseDups_concat, if_neg hnot]
    refine List.rel_append ?_ (List.Forall₂.cons ?_ List.Forall₂.nil)
    · have hmem : ∀ w ∈ seen.eraseDups, w ∈ seen := fun w => List.mem_eraseDups.mp
      exact ((List.forall₂_and_left _ _).mpr ⟨hmem, hgroups⟩).imp hkept
    · refine ⟨v, name, sourceName, source, r, next, rfl, hsource, hmodel, hr, htarget, ?_⟩
      rwa [hold hv hvne, hnew]
  · rw [hq]
    exact hfollows.allLookBack_append hc.allLookBack (hc.labelOf_mem hv)

/-- A relation of a table that the planner has been led to leads it one path further. -/
theorem addRelation {v : List String} {sourceName name label : String}
    (hv : v = [] ∨ v ∈ seen) (hdot : '.' ∉ name.toList)
    (hsource : g.reached root v = .ok sourceName)
    (h : p.addRelation sourceName (p.labelOf v) name kind = (.ok label, q)) :
    q.Covers g root rootLabel kind (seen ++ [v ++ [name]]) ∧
      q.labelOf (v ++ [name]) = label := by
  have hne : v ++ [name] ≠ [] := by simp
  have hclosed := hc.closed_concat hv hdot
  have hdots := (hclosed (v ++ [name]) (by simp)).2.1
  have hpath := hc.pathFrom_labelOf hv name
  cases hknown : p.labelAt? (dotted (v ++ [name])) with
  | some known =>
    simp only [Planner.addRelation, hpath, hknown, Prod.mk.injEq, Except.ok.injEq] at h
    obtain ⟨rfl, rfl⟩ := h
    have hseen : v ++ [name] ∈ seen := by
      by_contra hnot
      simp [(hc.labelAt?_eq_none_iff hne hdots).mpr hnot] at hknown
    refine ⟨⟨hc.consistent, hc.registry_eq, ?_, hclosed, hc.allLookBack⟩, ?_⟩
    · rw [eraseDups_concat, if_pos hseen]
      exact hc.joins_eq
    · rw [labelOf, if_neg hne, hknown, Option.getD_some]
  | none =>
    have hnot := (hc.labelAt?_eq_none_iff hne hdots).mp hknown
    have ha := addRelation_adds (hpath ▸ hknown) h
    have hconsistent := hc.consistent.addRelation sourceName (p.labelOf v) name kind
    rw [hpath] at ha
    rw [h] at hconsistent
    exact hc.of_adds hv hdot hsource hnot hconsistent ha

theorem addPath {v rest : List String} {sourceName label : String} (hv : v = [] ∨ v ∈ seen)
    (hdots : ∀ r ∈ rest, '.' ∉ r.toList) (hsource : g.reached root v = .ok sourceName)
    (h : p.addPath sourceName (p.labelOf v) kind rest = (.ok label, q)) :
    q.Covers g root rootLabel kind (seen ++ rest.inits.tail.map (v ++ ·)) := by
  induction rest generalizing p seen v sourceName with
  | nil =>
    simp only [Planner.addPath, Prod.mk.injEq] at h
    simpa [h.2] using hc
  | cons name rest ih =>
    unfold Planner.addPath at h
    rw [hc.registry_eq] at h
    split at h
    · simp at h
    · next source r hdecl =>
      obtain ⟨hmodel, hr⟩ := declaration_eq_ok hdecl
      split_ifs at h
      · simp at h
      · split at h
        · simp at h
        · next next' p' hp' =>
          obtain ⟨hc', hlabel⟩ :=
            hc.addRelation hv (hdots name List.mem_cons_self) hsource hp'
          rw [← hlabel] at h
          have := ih hc' (Or.inr (by simp)) (fun r hr => hdots r (List.mem_cons_of_mem _ hr))
            (Registry.reached_concat hsource hmodel hr) h
          have hinits : (name :: rest).inits.tail.map (v ++ ·) =
              (v ++ [name]) :: rest.inits.tail.map (v ++ [name] ++ ·) := by
            cases rest <;> simp [Function.comp_def]
          rwa [hinits, List.append_cons]

end Covers

end Planner

/-- The joins of a query are those of a planner that has been led along its includes. -/
theorem Query.planJoins_covers {q : Query} {joins : List Join} (h : q.planJoins = .ok joins) :
    ∃ p : Planner, p.joins = joins ∧ p.Covers q.mapper.registry q.model q.label
      q.mapper.options.defaultJoin q.visitedPaths := by
  simp only [planJoins, bind_eq_ok, pure_eq_ok] at h
  obtain ⟨p, hp, rfl⟩ := h
  refine ⟨p, rfl, ?_⟩
  unfold visitedPaths
  generalize OrderedMap.keys q.includes = paths at hp ⊢
  induction paths using List.reverseRecOn generalizing p with
  | nil =>
    obtain rfl : Planner.start q.mapper.registry q.label = p := by simpa [pure_eq_ok] using hp
    exact Planner.start_covers ..
  | append_singleton paths path ih =>
    obtain ⟨p', hp', hstep⟩ := foldlM_concat_eq_ok.mp hp
    have hc := ih p' hp'
    split_ifs at hstep
    simp only [Planner.follow] at hstep
    split at hstep
    · next label p'' hadd =>
      obtain rfl := Except.ok.inj hstep
      have := hc.addPath (Or.inl rfl) (fun r => Planner.dot_not_mem_segments) rfl hadd
      simpa using this
    · simp at hstep

/-- Joins that follow every included path of a query once, in the order in which these paths are
first met: each from the table of the path without its last relation, under labels of their own,
and referring to no table that comes later. -/
structure Query.FollowedBy (q : Query) (label : List String → String) (joins : List Join) :
    Prop where
  root_eq : label [] = q.label
  joins_eq : ∃ groups, joins = groups.flatten ∧ List.Forall₂
    (Join.Reaches q.mapper.registry q.model q.mapper.options.defaultJoin label)
    q.includedPaths groups
  paths_eq : (joins.filter fun j => !j.isJunction).map Join.path =
    q.includedPaths.map Planner.dotted
  labels_nodup : (q.label :: joins.map Join.label).Nodup
  allLookBack : Join.AllLookBack q.label joins

/-- The join of the table at the end of a path of relations, given the label at the end of every
path. It leads from the table at the end of the path without its last relation. -/
structure Join.Ends (label : List String → String) (relations : List String) (j : Join) :
    Prop where
  path_eq : j.path = Planner.dotted relations
  label_eq : j.label = label relations
  parent_eq : j.parent = label relations.dropLast

theorem Join.Reaches.ends {g : Registry} {root : String} {kind : JoinKind}
    {label : List String → String} {relations : List String} {joins : List Join}
    (h : Join.Reaches g root kind label relations joins) :
    ∃ j, (joins.filter fun j => !j.isJunction) = [j] ∧ j.Ends label relations := by
  obtain ⟨before, name, sourceName, source, r, target, rfl, -, -, -, -, hfollows⟩ := h
  have hlast : (before ++ [name]).dropLast = before := List.dropLast_concat
  cases hfollows with
  | direct hmatched => exact ⟨_, rfl, rfl, rfl, by rw [hlast]⟩
  | manyToMany hkind hkey hreferred => exact ⟨_, rfl, rfl, rfl, by rw [hlast]⟩

/-- Besides the tables between two models, each path has one joined table. -/
theorem Join.ends_of_reaches {g : Registry} {root : String} {kind : JoinKind}
    {label : List String → String} {paths : List (List String)} {groups : List (List Join)}
    (h : List.Forall₂ (Join.Reaches g root kind label) paths groups) :
    List.Forall₂ (Join.Ends label) paths (groups.flatten.filter fun j => !j.isJunction) := by
  induction h with
  | nil => exact .nil
  | cons hreaches _ ih =>
    obtain ⟨j, hj, hends⟩ := hreaches.ends
    rw [List.flatten_cons, List.filter_append, hj]
    exact .cons hends ih

theorem Join.paths_eq_of_reaches {g : Registry} {root : String} {kind : JoinKind}
    {label : List String → String} {paths : List (List String)} {groups : List (List Join)}
    (h : List.Forall₂ (Join.Reaches g root kind label) paths groups) :
    (groups.flatten.filter fun j => !j.isJunction).map Join.path = paths.map Planner.dotted :=
  (map_eq_of_forall₂ (ends_of_reaches h) fun _ _ _ hends => hends.path_eq.symm).symm

theorem Planner.Consistent.labels_nodup {root : String} {p : Planner} (h : p.Consistent root) :
    (root :: p.joins.map Join.label).Nodup := by
  refine List.nodup_cons.mpr ⟨fun hroot => ?_, List.pairwise_map.mpr h.labels⟩
  obtain ⟨j, hj, hlabel⟩ := List.mem_map.mp hroot
  exact h.label_ne_root j hj hlabel

/-- Wherever the joins of a query can be planned, they follow each included path once, and
nothing else. -/
theorem Query.planJoins_followedBy {q : Query} {joins : List Join} (h : q.planJoins = .ok joins) :
    ∃ label, q.FollowedBy label joins := by
  obtain ⟨p, rfl, hc⟩ := planJoins_covers h
  obtain ⟨groups, hjoins, hgroups⟩ := hc.joins_eq
  refine ⟨p.labelOf, hc.consistent.rootLabel_eq, ⟨groups, hjoins, hgroups⟩, ?_, ?_, hc.allLookBack⟩
  · rw [hjoins]
    exact Join.paths_eq_of_reaches hgroups
  · exact hc.consistent.labels_nodup

def Query.usersWithTags : Query :=
  ((ofModel { registry := .blog, dialect := .sqlite } "User").includePath "posts.tags").includePath
    "posts"

theorem Query.planJoins_followedBy_usersWithTags : ∃ joins, usersWithTags.planJoins = .ok joins ∧
    joins.map Join.path = ["posts", "posts.tags#post_tags", "posts.tags"] ∧
    ∃ label, usersWithTags.FollowedBy label joins := by
  have hplanned : (usersWithTags.planJoins.map fun joins => joins.map Join.path).toOption =
      some ["posts", "posts.tags#post_tags", "posts.tags"] := by
    decide +kernel
  cases hjoins : usersWithTags.planJoins with
  | error e => simp [hjoins, Except.map, Except.toOption] at hplanned
  | ok joins =>
    rw [hjoins] at hplanned
    exact ⟨joins, rfl, Option.some.inj hplanned, planJoins_followedBy hjoins⟩

end RelMap
