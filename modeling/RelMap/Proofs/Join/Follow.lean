import RelMap.Proofs.Join.Run

/-! What it is to follow a relation: the joins that a call adds for it, the columns that these
equate, and the labels that they refer to. -/
namespace RelMap

/-- The model that relations lead to from a model. -/
def Registry.reached (g : Registry) (model : String) (relations : List String) :
    Except Error String :=
  relations.foldlM (fun name relation => return (← (← g.model name).relation relation).model) model

/-- The columns that a direct relation equates: that of its foreign key, in the model that
declares the key, and that of the field referred to in the other model. -/
inductive JoinPredicate.Equates (r : Relation) (source target : Model)
    (sourceLabel targetLabel : String) : JoinPredicate → Prop
  | forward {key referred : Field}
      (hkind : r.kind = .manyToOne ∨ r.kind = .oneToOne)
      (hkey : source.field? r.foreignKey = some key)
      (hreferred : target.field? (r.references.getD target.primaryKeyName) = some referred) :
      Equates r source target sourceLabel targetLabel
        ⟨sourceLabel, key.columnName, targetLabel, referred.columnName⟩
  | backward {key referred : Field}
      (hkind : r.kind = .oneToMany ∨ r.kind = .oneToOne ∧ source.field? r.foreignKey = none)
      (hkey : target.field? r.foreignKey = some key)
      (hreferred : source.field? (r.references.getD source.primaryKeyName) = some referred) :
      Equates r source target sourceLabel targetLabel
        ⟨targetLabel, key.columnName, sourceLabel, referred.columnName⟩

/-- The joins by which a relation is followed from the table labelled `parent` to a new table
labelled `label`: one for a direct relation, and two with a table between the models for a
many-to-many relation. -/
inductive Join.Follows (kind : JoinKind) (sourceName : String) (source target : Model)
    (r : Relation) (name parent label path : String) : List Join → Prop
  | direct {matched : JoinPredicate} (hmatched : matched.Equates r source target parent label) :
      Follows kind sourceName source target r name parent label path
        [{ kind, path, table := target.table, label, predicate := matched,
           model := some r.model, relationName := name, relation := some r, parent }]
  | manyToMany {junctionLabel : String} {key referred : Field} (hkind : r.kind = .manyToMany)
      (hkey : source.field? source.primaryKeyName = some key)
      (hreferred : target.field? (r.references.getD target.primaryKeyName) = some referred) :
      Follows kind sourceName source target r name parent label path
        [{ kind, table := Naming.junctionTable sourceName r.model, label := junctionLabel,
           predicate := ⟨parent, key.columnName, junctionLabel,
             Planner.junctionColumn source.table⟩,
           model := none, relationName := name, relation := none, parent,
           path := path ++ "#" ++ Naming.junctionTable sourceName r.model },
         { kind, path, table := target.table, label,
           predicate := ⟨junctionLabel, Planner.junctionColumn target.table, label,
             referred.columnName⟩,
           model := some r.model, relationName := name, relation := some r, parent }]

/-- The joins at the end of a path of relations, given the label at the end of every path. -/
def Join.Reaches (g : Registry) (root : String) (kind : JoinKind) (label : List String → String)
    (relations : List String) (joins : List Join) : Prop :=
  ∃ before name sourceName source r target,
    relations = before ++ [name] ∧ g.reached root before = .ok sourceName ∧
      g.model sourceName = .ok source ∧ source.relation name = .ok r ∧
      g.model r.model = .ok target ∧
      Join.Follows kind sourceName source target r name (label before) (label relations)
        (Planner.dotted relations) joins

/-- A join that leads from the root or an earlier join of a model, and whose predicate names no
label but its own, that of the root, and those of earlier joins. -/
structure Join.LooksBack (root : String) (earlier : List Join) (j : Join) : Prop where
  parent : j.parent = root ∨ ∃ a ∈ earlier, a.isJunction = false ∧ a.label = j.parent
  predicate : ∀ label ∈ [j.predicate.leftLabel, j.predicate.rightLabel],
    label = j.label ∨ label = root ∨ ∃ a ∈ earlier, a.label = label

/-- Joins of which none refers to a later one. -/
def Join.AllLookBack (root : String) (joins : List Join) : Prop :=
  ∀ before j after, joins = before ++ j :: after → j.LooksBack root before

theorem Registry.reached_concat {g : Registry} {root sourceName : String}
    {before : List String} {name : String} {source : Model} {r : Relation}
    (hbefore : g.reached root before = .ok sourceName) (hsource : g.model sourceName = .ok source)
    (hr : source.relation name = .ok r) : g.reached root (before ++ [name]) = .ok r.model := by
  refine foldlM_concat_eq_ok.mpr ⟨sourceName, hbefore, ?_⟩
  simp [hsource, hr, bind, Except.bind, pure, Except.pure]

theorem JoinPredicate.Equates.kind_ne {r : Relation} {source target : Model}
    {sourceLabel targetLabel : String} {p : JoinPredicate}
    (h : p.Equates r source target sourceLabel targetLabel) : r.kind ≠ .manyToMany := by
  cases h with
  | forward hkind => rcases hkind with hkind | hkind <;> simp [hkind]
  | backward hkind => rcases hkind with hkind | ⟨hkind, -⟩ <;> simp [hkind]

namespace Planner

theorem predicate_equates {r : Relation} {source target : Model}
    {sourceLabel targetLabel : String} {matched : JoinPredicate}
    (h : predicate r source target sourceLabel targetLabel = .ok matched) :
    matched.Equates r source target sourceLabel targetLabel := by
  have hforward : r.kind = .manyToOne ∨ r.kind = .oneToOne →
      forwardPredicate r source target sourceLabel targetLabel = .ok matched →
      matched.Equates r source target sourceLabel targetLabel := by
    intro hkind h
    simp only [forwardPredicate, bind_eq_ok, Model.columnName_eq_ok, pure_eq_ok] at h
    obtain ⟨_, ⟨key, hkey, rfl⟩, _, ⟨referred, hreferred, rfl⟩, rfl⟩ := h
    exact .forward hkind hkey hreferred
  have hbackward : r.kind = .oneToMany ∨ r.kind = .oneToOne ∧ source.field? r.foreignKey = none →
      backwardPredicate r source target sourceLabel targetLabel = .ok matched →
      matched.Equates r source target sourceLabel targetLabel := by
    intro hkind h
    simp only [backwardPredicate, bind_eq_ok, Model.columnName_eq_ok, pure_eq_ok] at h
    obtain ⟨_, ⟨key, hkey, rfl⟩, _, ⟨referred, hreferred, rfl⟩, rfl⟩ := h
    exact .backward hkind hkey hreferred
  unfold predicate at h
  split at h
  · next hk => exact hforward (Or.inl hk) h
  · next hk => exact hbackward (Or.inl hk) h
  · next hk =>
    split_ifs at h with hf
    · exact hforward (Or.inr hk) h
    · exact hbackward (Or.inr ⟨hk, by simpa using hf⟩) h
  · simp at h

/-- What a call adds that follows a relation to a path that is not joined yet. -/
structure Adds (p q : Planner) (kind : JoinKind) (model label name path target : String) :
    Prop where
  registry_eq : q.registry = p.registry
  root_eq : q.rootLabel = p.rootLabel
  paths_eq : q.paths = OrderedMap.insert path target p.paths
  joins_eq : ∃ source r next joins, p.registry.model model = .ok source ∧
    source.relation name = .ok r ∧ p.registry.model r.model = .ok next ∧
    Join.Follows kind model source next r name label target path joins ∧
    q.joins = p.joins ++ joins

theorem declaration_eq_ok {registry : Registry} {model name : String} {source : Model}
    {r : Relation} (h : declaration registry model name = .ok (source, r)) :
    registry.model model = .ok source ∧ source.relation name = .ok r := by
  simp only [declaration, bind_eq_ok, pure_eq_ok, Prod.mk.injEq] at h
  obtain ⟨_, hsource, _, hr, rfl, rfl⟩ := h
  exact ⟨hsource, hr⟩

theorem addDirect_adds {p q : Planner} {source next : Model} {r : Relation}
    {model label name path target : String} {kind : JoinKind}
    (hsource : p.registry.model model = .ok source) (hr : source.relation name = .ok r)
    (hnext : p.registry.model r.model = .ok next)
    (h : p.addDirect source next r label name path kind = (.ok target, q)) :
    p.Adds q kind model label name path target := by
  unfold addDirect at h
  dsimp only at h
  split at h
  · simp at h
  · next matched hm =>
    simp only [Prod.mk.injEq, Except.ok.injEq] at h
    obtain ⟨rfl, rfl⟩ := h
    exact ⟨rfl, rfl, rfl, source, r, next, _, hsource, hr, hnext,
      .direct (predicate_equates hm), rfl⟩

theorem addJunction_eq_ok {p q : Planner} {source : Model} {r : Relation}
    {model label name path junctionLabel : String} {kind : JoinKind}
    (h : p.addJunction source r model label name path kind = (.ok junctionLabel, q)) :
    ∃ key, source.field? source.primaryKeyName = some key ∧
      q.registry = p.registry ∧ q.rootLabel = p.rootLabel ∧ q.paths = p.paths ∧
      q.joins = p.joins ++ [{
        kind, table := Naming.junctionTable model r.model, label := junctionLabel
        predicate := ⟨label, key.columnName, junctionLabel, junctionColumn source.table⟩
        model := none, relationName := name, relation := none, parent := label
        path := path ++ "#" ++ Naming.junctionTable model r.model }] := by
  unfold addJunction at h
  dsimp only at h
  split at h
  · simp at h
  · next column hcolumn =>
    obtain ⟨key, hkey, rfl⟩ := Model.columnName_eq_ok.mp hcolumn
    simp only [Prod.mk.injEq, Except.ok.injEq] at h
    obtain ⟨rfl, rfl⟩ := h
    exact ⟨key, hkey, rfl, rfl, rfl, rfl⟩

theorem addFarSide_eq_ok {p q : Planner} {next : Model} {r : Relation}
    {junctionLabel label name path target : String} {kind : JoinKind}
    (h : p.addFarSide next r junctionLabel label name path kind = (.ok target, q)) :
    ∃ referred, next.field? (r.references.getD next.primaryKeyName) = some referred ∧
      q.registry = p.registry ∧ q.rootLabel = p.rootLabel ∧
      q.paths = OrderedMap.insert path target p.paths ∧
      q.joins = p.joins ++ [{
        kind, path, table := next.table, label := target
        predicate := ⟨junctionLabel, junctionColumn next.table, target, referred.columnName⟩
        model := some r.model, relationName := name, relation := some r, parent := label }] := by
  unfold addFarSide at h
  dsimp only at h
  split at h
  · simp at h
  · next column hcolumn =>
    obtain ⟨referred, hreferred, rfl⟩ := Model.columnName_eq_ok.mp hcolumn
    simp only [Prod.mk.injEq, Except.ok.injEq] at h
    obtain ⟨rfl, rfl⟩ := h
    exact ⟨referred, hreferred, rfl, rfl, rfl, rfl⟩

theorem addManyToMany_adds {p q : Planner} {model label name target : String} {kind : JoinKind}
    (hnew : p.labelAt? (p.pathFrom label name) = none)
    (h : p.addManyToMany model label name kind = (.ok target, q)) :
    p.Adds q kind model label name (p.pathFrom label name) target := by
  unfold addManyToMany at h
  simp only [hnew] at h
  split at h
  · simp at h
  · next source r hdecl =>
    obtain ⟨hsource, hr⟩ := declaration_eq_ok hdecl
    split_ifs at h with hkind hself
    · simp at h
    · simp at h
    · split at h
      · simp at h
      · next next' hnext =>
        split at h
        · simp at h
        · next junctionLabel p' hj =>
          obtain ⟨key, hkey, hg, hroot, hpaths, hjoins⟩ := addJunction_eq_ok hj
          obtain ⟨referred, hreferred, hg', hroot', hpaths', hjoins'⟩ := addFarSide_eq_ok h
          rw [hjoins, List.append_assoc] at hjoins'
          exact ⟨hg'.trans hg, hroot'.trans hroot, hpaths ▸ hpaths', source, r, next', _,
            hsource, hr, hnext, .manyToMany (by simpa using hkind) hkey hreferred, hjoins'⟩

theorem addRelation_adds {p q : Planner} {model label name target : String} {kind : JoinKind}
    (hnew : p.labelAt? (p.pathFrom label name) = none)
    (h : p.addRelation model label name kind = (.ok target, q)) :
    p.Adds q kind model label name (p.pathFrom label name) target := by
  unfold addRelation at h
  simp only [hnew] at h
  split at h
  · simp at h
  · next source r hdecl =>
    obtain ⟨hsource, hr⟩ := declaration_eq_ok hdecl
    split_ifs at h with hkind
    · exact addManyToMany_adds hnew h
    · split at h
      · simp at h
      · next hnext => exact addDirect_adds hsource hr hnext h

end Planner

theorem Join.AllLookBack.concat {root : String} {joins : List Join} {last : Join}
    (hjoins : AllLookBack root joins) (hlast : last.LooksBack root joins) :
    AllLookBack root (joins ++ [last]) := by
  intro before j after he
  rcases List.eq_nil_or_concat after with rfl | ⟨after, a, rfl⟩
  · obtain ⟨rfl, hj⟩ := List.append_inj' he rfl
    obtain rfl := List.singleton_inj.mp hj
    exact hlast
  · rw [List.concat_eq_append, ← List.cons_append, ← List.append_assoc] at he
    exact hjoins before j after (List.append_inj' he rfl).1

namespace Join.Follows

variable {kind : JoinKind} {sourceName name parent label path : String} {source target : Model}
  {r : Relation} {joins : List Join}
  (h : Follows kind sourceName source target r name parent label path joins)
include h

theorem exists_end : ∃ j ∈ joins, j.isJunction = false ∧ j.path = path ∧ j.label = label := by
  cases h with
  | direct hmatched => exact ⟨_, List.mem_singleton_self _, rfl, rfl, rfl⟩
  | manyToMany hkind hkey hreferred =>
    exact ⟨_, List.mem_cons_of_mem _ (List.mem_singleton_self _), rfl, rfl, rfl⟩

/-- Only the join at the end is no junction. -/
theorem eq_end {j : Join} (hj : j ∈ joins) (hjunction : j.isJunction = false) :
    j.path = path ∧ j.table = target.table ∧ j.model = some r.model ∧ j.relation = some r := by
  cases h with
  | direct hmatched =>
    rw [List.mem_singleton.mp hj]
    exact ⟨rfl, rfl, rfl, rfl⟩
  | manyToMany hkind hkey hreferred =>
    rcases List.mem_cons.mp hj with rfl | hj
    · simp [isJunction] at hjunction
    · rw [List.mem_singleton.mp hj]
      exact ⟨rfl, rfl, rfl, rfl⟩

/-- Joins still look back when joins that follow a relation of the root or of one of them come
after them. -/
theorem allLookBack_append {root : String} {earlier : List Join}
    (hearlier : AllLookBack root earlier)
    (hparent : parent = root ∨ ∃ a ∈ earlier, a.isJunction = false ∧ a.label = parent) :
    AllLookBack root (earlier ++ joins) := by
  have hlabel : parent = root ∨ ∃ a ∈ earlier, a.label = parent :=
    hparent.imp_right fun ⟨a, ha, _, he⟩ => ⟨a, ha, he⟩
  cases h with
  | direct hmatched =>
    refine hearlier.concat ⟨hparent, fun l hl => ?_⟩
    rcases hmatched with ⟨hkind, hkey, hreferred⟩ | ⟨hkind, hkey, hreferred⟩ <;>
      simp only [List.mem_cons, List.not_mem_nil, or_false] at hl <;> rcases hl with rfl | rfl
    · exact Or.inr hlabel
    · exact Or.inl rfl
    · exact Or.inl rfl
    · exact Or.inr hlabel
  | manyToMany hkind hkey hreferred =>
    have hparent' : ∀ last : Join, parent = root ∨
        ∃ a ∈ earlier ++ [last], a.isJunction = false ∧ a.label = parent :=
      fun last => hparent.imp_right fun ⟨a, ha, he⟩ => ⟨a, List.mem_append_left _ ha, he⟩
    rw [← List.singleton_append, ← List.append_assoc]
    refine (hearlier.concat ⟨hparent, fun l hl => ?_⟩).concat ⟨hparent' _, fun l hl => ?_⟩ <;>
      simp only [List.mem_cons, List.not_mem_nil, or_false] at hl <;> rcases hl with rfl | rfl
    · exact Or.inr hlabel
    · exact Or.inl rfl
    · exact Or.inr (Or.inr ⟨_, List.mem_append_right _ (List.mem_singleton_self _), rfl⟩)
    · exact Or.inl rfl

end Join.Follows
end RelMap
