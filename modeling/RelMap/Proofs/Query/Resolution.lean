import RelMap.Proofs.Condition.Resolution
import RelMap.Proofs.Join.Include
import RelMap.Proofs.Query.Parts
import RelMap.Proofs.Text.LetterCase

/-! The tables that the conditions of a select are about. Each comparison is qualified by the label
of a table of its own model, and only by that of the query's model where the window stands
inside. -/
namespace RelMap

theorem Query.ofModel_label_ne_empty (mapper : Mapper) (model : String) :
    (ofModel mapper model).label ≠ "" := by
  unfold ofModel
  dsimp only
  split
  · decide
  · next c rest _ => exact fun h => Text.lowerChar_ne_nil c (by simpa using congrArg String.toList h)

namespace Select

variable {s : Select}

/-- A label under which a select reads the table of a model. -/
structure Labels (s : Select) (joins : List Join) (name : String) (m : Model) (label : String) :
    Prop where
  model_eq : s.query.mapper.registry.model name = .ok m
  of_own : name = s.query.model → label = s.query.label
  of_joined : name ≠ s.query.model →
    ∃ j ∈ joins, j.model = some name ∧ j.table = m.table ∧ j.label = label

/-- The column of a field, qualified by a label of the table of the model of the field. -/
def Qualifies (s : Select) (joins : List Join) (field : FieldRef) (column : String) : Prop :=
  ∃ m label, s.Labels joins ((s.scope joins).modelOf field) m label ∧
    column = s.query.mapper.dialect.quote label ++ "." ++
      s.query.mapper.dialect.quote (m.toColumn field.name)

/-- The conditions of a statement, written with the column of each field. -/
structure Resolves (s : Select) (st : SelectStatement) (column : FieldRef → String) : Prop where
  qualifies : ∀ c ∈ s.query.conditions ++ s.query.having.toList, ∀ q ∈ c.comparisons,
    s.Qualifies st.joins q.field (column q.field)
  labels_nodup : (s.query.label :: st.joins.map Join.label).Nodup
  text_eq : ∃ root distinct output order groups,
    s.query.mapper.registry.model s.query.model = .ok root ∧
      st.sql.text = s.query.mapper.dialect.finalize
        ("SELECT " ++ distinct ++ output ++ " FROM " ++ s.sourceSql root st.joins
          (Sql.conjunction (Condition.writtenAll column s.query.conditions)).text order groups
          (s.query.having.elim "" fun c => Sql.clause "HAVING" (c.written column).text)
          (s.pagesInside st.joins))
  own_inside : s.pagesInside st.joins = true →
    ∀ c ∈ s.query.conditions, ∀ q ∈ c.comparisons,
      (s.scope st.joins).modelOf q.field = s.query.model ∧
        ∃ m, s.query.mapper.registry.model s.query.model = .ok m ∧
          column q.field = s.query.mapper.dialect.quote s.query.label ++ "." ++
            s.query.mapper.dialect.quote (m.toColumn q.field.name)

theorem labels_of_labelOf {joins : List Join} (hplanned : s.query.planJoins = .ok joins)
    {name label : String} {m : Model} (hm : s.query.mapper.registry.model name = .ok m)
    (h : (s.scope joins).labelOf name = .ok label) : s.Labels joins name m label := by
  unfold Scope.labelOf at h
  split_ifs at h with hown
  · obtain rfl := Except.ok.inj h
    exact ⟨hm, fun _ => rfl, fun hother => absurd hown hother⟩
  · refine ⟨hm, fun hsame => absurd hsame hown, fun _ => ?_⟩
    split at h
    · next found hfound =>
      obtain rfl := Except.ok.inj h
      obtain ⟨j, hj, hentry⟩ := List.mem_filterMap.mp (OrderedMap.mem_of_find? hfound)
      obtain ⟨model, hmodel, hpair⟩ := Option.map_eq_some_iff.mp hentry
      obtain ⟨rfl, hlabel⟩ := Prod.mk.inj hpair
      obtain ⟨p, rfl, hc⟩ := Query.planJoins_covers hplanned
      obtain ⟨r, target, hr, -, htarget, htable⟩ :=
        hc.exists_target hj (by rw [Join.isJunction, hmodel]; rfl)
      obtain rfl : r.model = model := Option.some.inj (hr.symm.trans hmodel)
      obtain rfl := Except.ok.inj (htarget.symm.trans hm)
      exact ⟨j, hj, hmodel, htable, hlabel⟩
    · cases h

/-- The tables that a select reads have labels. -/
theorem Labels.label_ne_empty {joins : List Join} (hlabel : s.query.label ≠ "")
    (hplanned : s.query.planJoins = .ok joins) {name label : String} {m : Model}
    (h : s.Labels joins name m label) : label ≠ "" := by
  by_cases hown : name = s.query.model
  · rwa [h.of_own hown]
  · obtain ⟨j, hj, -, -, rfl⟩ := h.of_joined hown
    obtain ⟨p, rfl, hc⟩ := Query.planJoins_covers hplanned
    obtain ⟨n, hcandidate⟩ := hc.consistent.label_eq j hj
    rw [hcandidate]
    exact fun hempty => Label.candidate_ne_nil j.table n (congrArg String.toList hempty)

theorem qualifies_of_columnFor {joins : List Join} (hlabel : s.query.label ≠ "")
    (hplanned : s.query.planJoins = .ok joins) {field : FieldRef} {column : String}
    (h : (s.scope joins).columnFor field = .ok column) : s.Qualifies joins field column := by
  obtain ⟨m, label, hm, hlabelOf, rfl⟩ := Scope.columnFor_eq_ok.mp h
  have hlabels := labels_of_labelOf hplanned hm hlabelOf
  refine ⟨m, label, hlabels, ?_⟩
  rw [Scope.qualified, if_neg (by simpa using hlabels.label_ne_empty hlabel hplanned)]
  rfl

theorem Qualifies.own {joins : List Join} {field : FieldRef} {column : String}
    (h : s.Qualifies joins field column) (hown : (s.scope joins).modelOf field = s.query.model) :
    ∃ m, s.query.mapper.registry.model s.query.model = .ok m ∧
      column = s.query.mapper.dialect.quote s.query.label ++ "." ++
        s.query.mapper.dialect.quote (m.toColumn field.name) := by
  obtain ⟨m, label, hlabels, hcolumn⟩ := h
  rw [hlabels.of_own hown] at hcolumn
  exact ⟨m, hown ▸ hlabels.model_eq, hcolumn⟩

theorem havingSql_text {q : Query} {scope : Scope} {having : Sql} (h : q.havingSql scope = .ok having)
    {column : FieldRef → String} (hcolumn : ∀ c ∈ q.having, ∀ p ∈ c.comparisons,
      scope.columnFor p.field = .ok (column p.field)) :
    having.text = q.having.elim "" fun c => Sql.clause "HAVING" (c.written column).text := by
  unfold Query.havingSql at h
  cases hcondition : q.having with
  | none =>
    rw [hcondition] at h
    obtain rfl := Except.ok.inj h
    rfl
  | some c =>
    rw [hcondition] at h
    dsimp only at h
    rw [Condition.render_eq_written (hcolumn c hcondition)] at h
    obtain rfl := Except.ok.inj h
    rfl

theorem resolves_of_having {q : Query} {scope : Scope} {having : Sql}
    (h : q.havingSql scope = .ok having) {c : Condition} (hc : c ∈ q.having) :
    ∀ p ∈ c.comparisons, scope.Resolves (scope.modelOf p.field) := by
  unfold Query.havingSql at h
  rw [Option.mem_def.mp hc] at h
  obtain ⟨sql, hsql, -⟩ := bind_eq_ok.mp h
  exact Condition.exists_render_iff.mp ⟨sql, hsql⟩

theorem resolves_of_conjunction {scope : Scope} {conditions : List Condition} {filter : Sql}
    (h : Condition.conjunction scope conditions = .ok filter) {c : Condition} (hc : c ∈ conditions) :
    ∀ p ∈ c.comparisons, scope.Resolves (scope.modelOf p.field) := by
  obtain ⟨parts, hparts, -⟩ := bind_eq_ok.mp h
  rw [Condition.renderAll_eq_mapM] at hparts
  exact Condition.exists_render_iff.mp (exists_mapM_eq_ok_iff.mp ⟨parts, hparts⟩ c hc)

/-- The conditions of a select that can be built are about models in its scope. -/
theorem Parts.resolves {st : SelectStatement} {model : Model}
    {distinct output order groups : String} {filter having : Sql} {inside : Bool}
    (h : s.Parts st model distinct output filter order groups having inside) :
    ∀ c ∈ s.query.conditions ++ s.query.having.toList, ∀ q ∈ c.comparisons,
      (s.scope st.joins).Resolves ((s.scope st.joins).modelOf q.field) := by
  intro c hc
  rcases List.mem_append.mp hc with hc | hc
  · exact resolves_of_conjunction h.filter_eq hc
  · exact resolves_of_having h.having_eq (Option.mem_toList.mp hc)

theorem resolves_of_statement {st : SelectStatement} (hlabel : s.query.label ≠ "")
    (h : s.statement = .ok st) : ∃ column, s.Resolves st column := by
  obtain ⟨root, distinct, output, filter, order, groups, having, inside, hparts⟩ :=
    statement_parts h
  have hplanned := hparts.joins_eq
  -- The column that the scope has for a field, and any text where it has none.
  let column (field : FieldRef) : String :=
    ((s.scope st.joins).columnFor field).toOption.getD ""
  have hresolves : ∀ c ∈ s.query.conditions ++ s.query.having.toList, ∀ q ∈ c.comparisons,
      (s.scope st.joins).columnFor q.field = .ok (column q.field) := by
    intro c hc q hq
    obtain ⟨name, hname⟩ := Scope.columnFor_of_resolves (hparts.resolves c hc q hq)
    simp only [column, hname, Except.toOption, Option.getD_some]
  have hqualifies : ∀ c ∈ s.query.conditions ++ s.query.having.toList, ∀ q ∈ c.comparisons,
      s.Qualifies st.joins q.field (column q.field) :=
    fun c hc q hq => qualifies_of_columnFor hlabel hplanned (hresolves c hc q hq)
  have hfilter : filter = Sql.conjunction (Condition.writtenAll column s.query.conditions) := by
    have hwritten := Condition.conjunction_eq_written fun c hc =>
      hresolves c (List.mem_append_left _ hc)
    exact Except.ok.inj (hparts.filter_eq.symm.trans hwritten)
  have hhaving := havingSql_text hparts.having_eq fun c hc =>
    hresolves c (List.mem_append_right _ (Option.mem_toList.mpr hc))
  refine ⟨column, hqualifies, ?_, ⟨root, distinct, output, order, groups, hparts.model_eq, ?_⟩, ?_⟩
  · obtain ⟨p, hp, hc⟩ := Query.planJoins_covers hplanned
    exact hp ▸ hc.consistent.labels_nodup
  · rw [hparts.sql_eq, hfilter, hhaving, hparts.inside_eq]
  · intro hinside c hc q hq
    have hnone := hparts.own_only (hparts.inside_eq.trans hinside)
    rw [Condition.anyMentionsOther_eq_any, List.any_eq_false] at hnone
    have hown : (s.scope st.joins).modelOf q.field = s.query.model :=
      Condition.mentionsOther_eq_false.mp (Bool.eq_false_of_not_eq_true (hnone c hc)) q hq
    exact ⟨hown, (hqualifies c (List.mem_append_left _ hc) q hq).own hown⟩

/-- A condition is written exactly where each of its comparisons is on a registered model in scope,
and otherwise refused for the first that is not. In a statement each is then qualified by a label of
the table of its model, and inside a window by that of the query's own model. -/
theorem statement_resolves :
    (∀ (scope : Scope) (c : Condition),
      ((∃ sql, c.render scope = .ok sql) ↔
        ∀ q ∈ c.comparisons, scope.Resolves (scope.modelOf q.field)) ∧
      ∀ e, c.render scope = .error e ↔ ∃ before q after, c.comparisons = before ++ q :: after ∧
        (∀ p ∈ before, scope.Resolves (scope.modelOf p.field)) ∧
        ¬scope.Resolves (scope.modelOf q.field) ∧ e = scope.refusal (scope.modelOf q.field)) ∧
    ∀ (s : Select) (st : SelectStatement), s.query.label ≠ "" → s.statement = .ok st →
      ∃ column, s.Resolves st column := by
  refine ⟨fun scope c => ⟨Condition.exists_render_iff, fun e => Condition.render_eq_error⟩, ?_⟩
  exact fun s st hlabel h => resolves_of_statement hlabel h

/-- Posts of an author, of whose tags one is left out. -/
def taggedPosts : Select where
  query := ((Query.ofModel { registry := .blog, dialect := .sqlite } "Post").includePath
    "tags").filter (.all [.compare ⟨⟨"author", none⟩, .eq (.int 1)⟩,
      .not (.compare ⟨⟨"id", some "Tag"⟩, .eq (.int 2)⟩)])

/-- The first posts of an author with their tags. -/
def firstPosts : Select where
  query := { ((Query.ofModel { registry := .blog, dialect := .sqlite } "Post").includePath
    "tags").filter (.compare ⟨⟨"author", some "Post"⟩, .eq (.int 1)⟩) with limit := some 3 }

theorem statement_resolves_posts :
    (∃ st, taggedPosts.statement = .ok st ∧ taggedPosts.pagesInside st.joins = false ∧
      ∃ column, taggedPosts.Resolves st column) ∧
    ∃ st, firstPosts.statement = .ok st ∧ firstPosts.pagesInside st.joins = true ∧
      ∃ column, firstPosts.Resolves st column := by
  obtain ⟨joined, hjoined, houtside⟩ := exists_ok_of_toOption
    (x := taggedPosts.statement) (f := fun st => taggedPosts.pagesInside st.joins) (b := false)
    (by decide +kernel)
  obtain ⟨paged, hpaged, hinside⟩ := exists_ok_of_toOption
    (x := firstPosts.statement) (f := fun st => firstPosts.pagesInside st.joins) (b := true)
    (by decide +kernel)
  have hlabel := Query.ofModel_label_ne_empty { registry := .blog, dialect := .sqlite } "Post"
  exact ⟨⟨joined, hjoined, houtside, statement_resolves.2 taggedPosts joined hlabel hjoined⟩,
    paged, hpaged, hinside, statement_resolves.2 firstPosts paged hlabel hpaged⟩

end Select
end RelMap
