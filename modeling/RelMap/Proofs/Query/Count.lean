import RelMap.Proofs.Query.Resolution

/-!
Counts and the selects they belong to. A count sees only the columns of its own model. Where that is
enough, it is restricted by the same conditions with the same arguments as the select, and by
nothing else.
-/
namespace RelMap

namespace Query

/-- The conditions of a query, written with these columns: those on rows and the one on groups. -/
structure Restricts (q : Query) (column : FieldRef → String) (filter having : Sql) : Prop where
  filter_eq : filter = Sql.conjunction (Condition.writtenAll column q.conditions)
  having_text : having.text =
    q.having.elim "" fun c => Sql.clause "HAVING" (c.written column).text
  having_args : having.args = q.having.elim [] Condition.arguments

/-- The values that the conditions of a query bind. -/
def arguments (q : Query) : List Value :=
  Condition.argumentsOfAll q.conditions ++ q.having.elim [] Condition.arguments

/-- The comparisons of a query: those of the conditions on rows, then those of the one on groups. -/
def comparisons (q : Query) : List Comparison :=
  (q.conditions ++ q.having.toList).flatMap Condition.comparisons

/-- The model that a comparison of a query is about. -/
def modelOf (q : Query) (p : Comparison) : String := p.field.model.getD q.model

/-- Whether a condition of a query names a model other than its own. -/
def mentionsOther (q : Query) : Bool :=
  Condition.anyMentionsOther q.model q.conditions || q.having.any (Condition.mentionsOther q.model)

variable {q : Query} {s : Scope}

theorem mem_comparisons {p : Comparison} :
    p ∈ q.comparisons ↔ ∃ c, (c ∈ q.conditions ∨ c ∈ q.having) ∧ p ∈ c.comparisons := by
  simp [comparisons, or_and_right, exists_or]

theorem mentionsOther_eq_false :
    q.mentionsOther = false ↔ ∀ p ∈ q.comparisons, q.modelOf p = q.model := by
  have hcondition : ∀ c : Condition, c.mentionsOther q.model = false ↔
      ∀ p ∈ c.comparisons, q.modelOf p = q.model := fun c =>
    Condition.mentionsOther_eq_false (s := q.mapper.bareScope q.model)
  have hall : q.mentionsOther = (q.conditions ++ q.having.toList).any
      (Condition.mentionsOther q.model) := by
    rw [mentionsOther, Condition.anyMentionsOther_eq_any, List.any_append]
    cases q.having <;> simp
  rw [hall, List.any_eq_false]
  simp only [Bool.not_eq_true, hcondition, comparisons, List.mem_flatMap]
  exact ⟨fun h p ⟨c, hc, hp⟩ => h c hc p hp, fun h c hc p hp => h p ⟨c, hc, hp⟩⟩

theorem havingSql_args {having : Sql} (h : q.havingSql s = .ok having) :
    having.args = q.having.elim [] Condition.arguments := by
  unfold havingSql at h
  cases hcondition : q.having with
  | none =>
    rw [hcondition] at h
    obtain rfl := Except.ok.inj h
    rfl
  | some condition =>
    rw [hcondition] at h
    obtain ⟨sql, hsql, h⟩ := bind_eq_ok.mp h
    obtain rfl := pure_eq_ok.mp h
    exact (Condition.render_args hsql :)

/-- Writing the condition on groups ends like resolving its comparisons. -/
theorem ending_havingSql (s : Scope) : ending (q.havingSql s) =
    ending ((q.having.toList.flatMap Condition.comparisons).mapM fun p => s.columnFor p.field) := by
  unfold havingSql
  cases q.having with
  | none => rfl
  | some c =>
    rw [Option.toList_some, List.flatMap_singleton]
    exact (ending_bind_pure _ _).trans (c.ending_render s)

theorem args_eq_arguments {filter having : Sql}
    (hfilter : Condition.conjunction s q.conditions = .ok filter)
    (hhaving : q.havingSql s = .ok having) : filter.args ++ having.args = q.arguments := by
  rw [Condition.conjunction_args hfilter, havingSql_args hhaving]
  rfl

/-- What a scope adds to the conditions of a query are the columns of their comparisons. -/
theorem restricts_of_columns {column : FieldRef → String} {filter having : Sql}
    (hfilter : Condition.conjunction s q.conditions = .ok filter)
    (hhaving : q.havingSql s = .ok having)
    (hcolumn : ∀ p ∈ q.comparisons, s.columnFor p.field = .ok (column p.field)) :
    q.Restricts column filter having := by
  have hwritten : Condition.conjunction s q.conditions = .ok _ :=
    Condition.conjunction_eq_written fun c hc p hp =>
      hcolumn p (mem_comparisons.mpr ⟨c, .inl hc, hp⟩)
  refine ⟨Except.ok.inj (hfilter.symm.trans hwritten), ?_, havingSql_args hhaving⟩
  exact Select.havingSql_text hhaving fun c hc p hp =>
    hcolumn p (mem_comparisons.mpr ⟨c, .inr hc, hp⟩)

end Query

namespace Select

variable {s : Select} {sql : Sql} {model : Model}

/-- The column of a field of the query's own model, under a label if there is one. -/
def columnUnder (s : Select) (model : Model) (label : String) (field : FieldRef) : String :=
  (s.query.mapper.bareScope s.query.model).qualified label (model.toColumn field.name)

theorem columnList_exists_ok (hmodel : s.query.mapper.registry.model s.query.model = .ok model)
    (label : String) (fields : List String) : ∃ text, s.columnList label fields = .ok text := by
  have hcolumn : ∀ field ∈ fields, ∃ expr, s.columnExpr label field = .ok expr := by
    intro field _
    unfold columnExpr Registry.fieldToColumn
    rw [hmodel]
    split_ifs <;> exact ⟨_, rfl⟩
  obtain ⟨exprs, hexprs⟩ := mapM_exists_ok hcolumn
  rw [columnList, hexprs]
  exact ⟨_, rfl⟩

theorem countedSql_exists_ok (hmodel : s.query.mapper.registry.model s.query.model = .ok model) :
    ∃ output, s.countedSql = .ok output := by
  unfold countedSql
  split
  · exact columnList_exists_ok hmodel "" _
  · exact ⟨_, rfl⟩

/-- A count ends like resolving the comparisons of its query where no other model is in reach. -/
theorem ending_countSql (hmodel : s.query.mapper.registry.model s.query.model = .ok model)
    (hgroups : s.query.having = none ∨ s.countsPlainly = false) :
    ending s.countSql = ending (s.query.comparisons.mapM fun p =>
      (s.query.mapper.bareScope s.query.model).columnFor p.field) := by
  have htable : s.query.mapper.registry.modelToTable s.query.model = .ok model.table := by
    rw [Registry.modelToTable, hmodel]
    rfl
  unfold countSql
  dsimp only
  rw [htable, ok_bind, Query.comparisons, List.flatMap_append, List.mapM_append]
  refine ending_bind_congr (Condition.ending_conjunction _ _) fun filter columns => ?_
  split
  · next hplain =>
    rcases hgroups with hnone | hgrouped
    · rw [hnone]
      rfl
    · exact absurd (hplain.symm.trans hgrouped) (by decide)
  · obtain ⟨output, houtput⟩ := countedSql_exists_ok hmodel
    obtain ⟨groups, hgroups⟩ := columnList_exists_ok hmodel "" s.query.groupBy
    rw [houtput, ok_bind, hgroups, ok_bind, ending_bind_pure, ending_bind_pure]
    exact s.query.ending_havingSql _

section Parts

variable {st : SelectStatement} {distinct output order groups : String} {filter having : Sql}
variable {inside : Bool}
variable (h : s.Parts st model distinct output filter order groups having inside)
include h

theorem Parts.args_eq : st.sql.args = s.query.arguments :=
  (congrArg Sql.args h.sql_eq).trans (Query.args_eq_arguments h.filter_eq h.having_eq)

/-- The models that the conditions of a select name are registered. -/
theorem Parts.registered : ∀ p ∈ s.query.comparisons,
    s.query.mapper.registry.contains (s.query.modelOf p) = true := by
  intro p hp
  obtain ⟨c, hc, hp⟩ := List.mem_flatMap.mp hp
  exact (h.resolves c hc p hp).registered

/-- Conditions that name no other model are written with columns under the label of the query. -/
theorem Parts.restricts (hown : s.query.mentionsOther = false) :
    s.query.Restricts (s.columnUnder model s.query.label) filter having :=
  Query.restricts_of_columns h.filter_eq h.having_eq fun p hp =>
    Scope.columnFor_own h.model_eq (Query.mentionsOther_eq_false.mp hown p hp)

/-- Where no other model is in reach, a comparison of a select resolves if it is on the query's own
model. -/
theorem Parts.resolves_iff {p : Comparison} (hp : p ∈ s.query.comparisons) :
    (s.query.mapper.bareScope s.query.model).Resolves (s.query.modelOf p) ↔
      s.query.modelOf p = s.query.model :=
  ⟨fun hresolves => hresolves.reached.resolve_right nofun,
    fun hown => ⟨h.registered p hp, .inl hown⟩⟩

theorem Parts.columnFor_eq_error {p : Comparison} (hp : p ∈ s.query.comparisons) {e : Error} :
    (s.query.mapper.bareScope s.query.model).columnFor p.field = .error e ↔
      s.query.modelOf p ≠ s.query.model ∧
        e = .invalidQuery (.conditionNotJoined (s.query.modelOf p) s.query.model) := by
  have hrefusal : (s.query.mapper.bareScope s.query.model).refusal (s.query.modelOf p) =
      .invalidQuery (.conditionNotJoined (s.query.modelOf p) s.query.model) :=
    if_pos (h.registered p hp)
  rw [← hrefusal]
  exact Scope.columnFor_eq_error.trans (and_congr_left' (not_congr (h.resolves_iff hp)))

theorem Parts.exists_columnFor_iff {p : Comparison} (hp : p ∈ s.query.comparisons) :
    (∃ column, (s.query.mapper.bareScope s.query.model).columnFor p.field = .ok column) ↔
      s.query.modelOf p = s.query.model :=
  Scope.exists_columnFor_iff.trans (h.resolves_iff hp)

variable (hgroups : s.query.having = none ∨ s.countsPlainly = false)
include hgroups

theorem Parts.exists_countSql_iff :
    (∃ count, s.countSql = .ok count) ↔ s.query.mentionsOther = false := by
  rw [exists_ok_congr (ending_countSql h.model_eq hgroups), exists_mapM_eq_ok_iff,
    Query.mentionsOther_eq_false]
  exact forall₂_congr fun p hp => h.exists_columnFor_iff hp

/-- A count is refused for the first comparison on another model. -/
theorem Parts.countSql_eq_error {e : Error} (he : s.countSql = .error e) :
    ∃ before p after, s.query.comparisons = before ++ p :: after ∧
      (∀ other ∈ before, s.query.modelOf other = s.query.model) ∧
      s.query.modelOf p ≠ s.query.model ∧
      e = .invalidQuery (.conditionNotJoined (s.query.modelOf p) s.query.model) := by
  rw [eq_error_congr (ending_countSql h.model_eq hgroups), mapM_eq_error] at he
  obtain ⟨before, p, after, heq, hbefore, hp⟩ := he
  have hmem : p ∈ s.query.comparisons := by simp [heq]
  obtain ⟨hmodel, rfl⟩ := (h.columnFor_eq_error hmem).mp hp
  refine ⟨before, p, after, heq, fun other hother => ?_, hmodel, rfl⟩
  exact (h.exists_columnFor_iff (by simp [heq, hother])).mp (hbefore other hother)

end Parts

section CountParts

variable {filter having count : Sql} (hgroups : s.query.having = none ∨ s.countsPlainly = false)
variable (h : s.CountParts model filter having count)
include hgroups h

/-- A count in which a condition on groups has its place is made of all conditions. -/
theorem CountParts.conditions :
    s.query.mapper.registry.model s.query.model = .ok model ∧
    Condition.conjunction (s.query.mapper.bareScope s.query.model) s.query.conditions = .ok filter ∧
    s.query.havingSql (s.query.mapper.bareScope s.query.model) = .ok having ∧
    count.args = filter.args ++ having.args := by
  cases h with
  | plain hplain hmodel hfilter =>
    rcases hgroups with hnone | hgrouped
    · have hhaving : s.query.havingSql (s.query.mapper.bareScope s.query.model) = .ok ⟨"", []⟩ := by
        rw [Query.havingSql, hnone]
      exact ⟨hmodel, hfilter, hhaving, (List.append_nil _).symm⟩
    · exact absurd (hplain.symm.trans hgrouped) (by decide)
  | grouped _ hmodel hfilter _ _ hhaving => exact ⟨hmodel, hfilter, hhaving, rfl⟩

theorem CountParts.args_eq : count.args = s.query.arguments := by
  obtain ⟨-, hfilter, hhaving, hargs⟩ := h.conditions hgroups
  exact hargs.trans (Query.args_eq_arguments hfilter hhaving)

theorem CountParts.restricts (hown : s.query.mentionsOther = false) :
    s.query.Restricts (s.columnUnder model "") filter having := by
  obtain ⟨hmodel, hfilter, hhaving, -⟩ := h.conditions hgroups
  exact Query.restricts_of_columns hfilter hhaving fun p hp =>
    Scope.columnFor_own hmodel (Query.mentionsOther_eq_false.mp hown p hp)

end CountParts

/-- A count belongs to its select: wherever the select can be built, the count can be built with
the same arguments, unless a comparison is on another model, which a count does not join. Both are
then restricted by the same conditions and by nothing else, in the select with the columns under
the label of the query, and in the count with the bare ones. A condition on groups has to come with
groups or with distinct rows. -/
theorem countSql_of_sql (hgroups : s.query.having = none ∨ s.countsPlainly = false)
    (h : s.sql = .ok sql) :
    if s.query.mentionsOther then
      ∃ before p after, s.query.comparisons = before ++ p :: after ∧
        (∀ other ∈ before, s.query.modelOf other = s.query.model) ∧
        s.query.modelOf p ≠ s.query.model ∧ s.countSql =
          .error (.invalidQuery (.conditionNotJoined (s.query.modelOf p) s.query.model))
    else ∃ st count model, s.statement = .ok st ∧ st.sql = sql ∧ s.countSql = .ok count ∧
      count.args = sql.args ∧
      (∃ distinct output filter order groups having inside,
        s.Parts st model distinct output filter order groups having inside ∧
        s.query.Restricts (s.columnUnder model s.query.label) filter having) ∧
      ∃ filter having, s.CountParts model filter having count ∧
        s.query.Restricts (s.columnUnder model "") filter having := by
  obtain ⟨st, hst, h⟩ := bind_eq_ok.mp h
  obtain rfl := pure_eq_ok.mp h
  obtain ⟨model, distinct, output, filter, order, groups, having, inside, hparts⟩ :=
    statement_parts hst
  split
  · next hother =>
    cases hcount : s.countSql with
    | ok count =>
      have hown := (hparts.exists_countSql_iff hgroups).mp ⟨count, hcount⟩
      exact absurd (hother.symm.trans hown) (by decide)
    | error e =>
      obtain ⟨before, p, after, heq, hbefore, hp, rfl⟩ := hparts.countSql_eq_error hgroups hcount
      exact ⟨before, p, after, heq, hbefore, hp, rfl⟩
  · next hother =>
    have hown : s.query.mentionsOther = false := Bool.not_eq_true _ ▸ hother
    obtain ⟨count, hcount⟩ := (hparts.exists_countSql_iff hgroups).mpr hown
    obtain ⟨counted, bareFilter, bareHaving, hbare⟩ := countSql_parts hcount
    obtain ⟨hmodel, -⟩ := hbare.conditions hgroups
    obtain rfl : counted = model := Except.ok.inj (hmodel.symm.trans hparts.model_eq)
    exact ⟨st, count, counted, hst, rfl, hcount, (hbare.args_eq hgroups).trans hparts.args_eq.symm,
      ⟨distinct, output, filter, order, groups, having, inside, hparts, hparts.restricts hown⟩,
      bareFilter, bareHaving, hbare, hbare.restricts hgroups hown⟩

/-- The authors of several posts, without the first ones, and the tags of these posts. -/
def busyAuthors : Select :=
  { query := { (Query.ofModel { registry := .blog, dialect := .postgresql } "Post").includePath
        "tags" with
      conditions := [.not (.any []), FieldRef.satisfies ⟨"author", some "Post"⟩ (.gt (.int 9))]
      groupBy := ["author"]
      having := some (.raw "COUNT(*) > ?" [.int 1]) }
    fields := ["author"] }

theorem countSql_of_sql_busyAuthors : ∃ sql count, busyAuthors.sql = .ok sql ∧
    busyAuthors.countSql = .ok count ∧ sql.args = [.int 9, .int 1] ∧ count.args = sql.args := by
  have hbuilt : busyAuthors.sql.toOption.isSome = true := by decide +kernel
  cases hsql : busyAuthors.sql with
  | error e => simp [hsql, Except.toOption] at hbuilt
  | ok sql =>
    have hcount := countSql_of_sql (.inr rfl) hsql
    rw [if_neg (by decide)] at hcount
    obtain ⟨st, count, _, -, rfl, hok, hargs, ⟨_, _, _, _, _, _, _, hparts, -⟩, -⟩ := hcount
    exact ⟨st.sql, count, rfl, hok, hparts.args_eq, hargs⟩

/-- Users with their posts, of a certain post. -/
def authorOfPost : Select :=
  { query := { (Query.ofModel { registry := .blog, dialect := .sqlite } "User").includePath "posts"
      with conditions := [FieldRef.satisfies ⟨"id", some "Post"⟩ (.eq (.int 7))] } }

/-- Posts by a condition on groups, which are not grouped. -/
def ungroupedPosts : Select :=
  { query := { Query.ofModel { registry := .blog, dialect := .sqlite } "Post" with
      having := some (FieldRef.satisfies ⟨"author", none⟩ (.gt (.int 2))) } }

/-- A condition on a joined model can be selected by, but not counted by; one on groups that are
not grouped is not counted by either. -/
theorem countSql_apart :
    ((∃ sql, authorOfPost.sql = .ok sql ∧ sql.args = [.int 7]) ∧
      authorOfPost.countSql = .error (.invalidQuery (.conditionNotJoined "Post" "User"))) ∧
    (∃ sql, ungroupedPosts.sql = .ok sql ∧ sql.args = [.int 2]) ∧
      ∃ count, ungroupedPosts.countSql = .ok count ∧ count.args = [] := by
  have hselects : ∀ s : Select, s.sql.toOption.isSome = true →
      ∃ sql, s.sql = .ok sql ∧ sql.args = s.query.arguments := by
    intro s hs
    cases hsql : s.sql with
    | error e => simp [hsql, Except.toOption] at hs
    | ok sql =>
      obtain ⟨st, hst, hsql⟩ := bind_eq_ok.mp hsql
      obtain rfl := pure_eq_ok.mp hsql
      obtain ⟨_, _, _, _, _, _, _, _, hparts⟩ := statement_parts hst
      exact ⟨st.sql, rfl, hparts.args_eq⟩
  exact ⟨⟨hselects authorOfPost (by decide +kernel), rfl⟩,
    hselects ungroupedPosts (by decide +kernel), _, rfl, rfl⟩

end Select
end RelMap
