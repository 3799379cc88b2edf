import RelMap.Proofs.Query.Closed

/-! What selects and their counts are made of, part by part. -/
namespace RelMap.Select

variable {s : Select}

/-- What follows the columns of a select. When the window stands inside, the conditions on rows
and the order stand in the subquery with it, and the order is repeated outside. -/
def sourceSql (s : Select) (model : Model) (joins : List Join) (filter order groups having : String)
    (inside : Bool) : String :=
  let dialect := s.query.mapper.dialect
  let table := dialect.quote model.table ++ " AS " ++ dialect.quote s.query.label
  let filterSql := Sql.clause "WHERE" filter
  let orderSql := Sql.clause "ORDER BY" order
  let pagingSql := Sql.clause "" (dialect.paging s.query.limit s.query.offset)
  let joinSql := Text.joinWith "" (joins.map fun j => " " ++ j.sql dialect)
  let groupSql := Sql.clause "GROUP BY" groups
  if inside then
    "(SELECT * FROM " ++ table ++ filterSql ++ orderSql ++ pagingSql ++ ") AS "
      ++ dialect.quote s.query.label ++ joinSql ++ groupSql ++ having ++ orderSql
  else table ++ joinSql ++ filterSql ++ groupSql ++ having ++ orderSql ++ pagingSql

/-- Whether the window stands inside. -/
def pagesInside (s : Select) (joins : List Join) : Bool :=
  !joins.isEmpty && !(s.query.mapper.dialect.paging s.query.limit s.query.offset).isEmpty

/-- The parts of the statement of a select. -/
structure Parts (s : Select) (st : SelectStatement) (model : Model) (distinct output : String)
    (filter : Sql) (order groups : String) (having : Sql) (inside : Bool) : Prop where
  model_eq : s.query.mapper.registry.model s.query.model = .ok model
  joins_eq : s.query.planJoins = .ok st.joins
  distinct_eq : s.distinctSql = .ok distinct
  output_eq : s.outputSql model st.joins = .ok output
  filter_eq : Condition.conjunction (s.scope st.joins) s.query.conditions = .ok filter
  order_eq : s.orderSql s.query.label = .ok order
  groups_eq : s.columnList s.query.label s.groupedFields = .ok groups
  having_eq : s.query.havingSql (s.scope st.joins) = .ok having
  inside_eq : inside = s.pagesInside st.joins
  own_only : inside = true → Condition.anyMentionsOther s.query.model s.query.conditions = false
  sql_eq : st.sql = ⟨s.query.mapper.dialect.finalize ("SELECT " ++ distinct ++ output ++ " FROM "
    ++ s.sourceSql model st.joins filter.text order groups having.text inside),
    filter.args ++ having.args⟩

theorem statement_parts {st : SelectStatement} (h : s.statement = .ok st) :
    ∃ model distinct output filter order groups having inside,
      s.Parts st model distinct output filter order groups having inside := by
  obtain ⟨model, hmodel, h⟩ := bind_eq_ok.mp h
  obtain ⟨joins, hjoins, h⟩ := bind_eq_ok.mp h
  obtain ⟨distinct, hdistinct, h⟩ := bind_eq_ok.mp h
  obtain ⟨output, houtput, h⟩ := bind_eq_ok.mp h
  obtain ⟨filter, hfilter, h⟩ := bind_eq_ok.mp h
  obtain ⟨order, horder, h⟩ := bind_eq_ok.mp h
  dsimp only at h
  generalize hinside : (!joins.isEmpty &&
    !(s.query.mapper.dialect.paging s.query.limit s.query.offset).isEmpty) = inside at h
  split at h
  · rw [throw_bind] at h
    cases h
  next hown =>
  obtain ⟨groups, hgroups, h⟩ := bind_eq_ok.mp h
  obtain ⟨having, hhaving, h⟩ := bind_eq_ok.mp h
  obtain rfl := pure_eq_ok.mp h
  refine ⟨model, distinct, output, filter, order, groups, having, inside, hmodel, hjoins, hdistinct,
    houtput, hfilter, horder, hgroups, hhaving, hinside.symm, ?_, ?_⟩
  · rintro rfl
    simpa using hown
  · cases inside <;> simp [sourceSql, String.append_assoc]

/-- The parts of a count over a model, with the conditions on rows and the one on groups: rows that
are neither distinct nor grouped are counted as they are, others in a subquery. -/
inductive CountParts (s : Select) (model : Model) (filter : Sql) : Sql → Sql → Prop where
  | plain (hplain : s.countsPlainly = true)
      (hmodel : s.query.mapper.registry.model s.query.model = .ok model)
      (hfilter : Condition.conjunction (s.query.mapper.bareScope s.query.model) s.query.conditions =
        .ok filter) :
      CountParts s model filter ⟨"", []⟩
        ⟨s.query.mapper.dialect.finalize ("SELECT COUNT(*) FROM "
          ++ s.query.mapper.dialect.quote model.table ++ Sql.clause "WHERE" filter.text),
          filter.args⟩
  | grouped {having : Sql} {output groups : String} (hplain : s.countsPlainly = false)
      (hmodel : s.query.mapper.registry.model s.query.model = .ok model)
      (hfilter : Condition.conjunction (s.query.mapper.bareScope s.query.model) s.query.conditions =
        .ok filter)
      (houtput : s.countedSql = .ok output)
      (hgroups : s.columnList "" s.query.groupBy = .ok groups)
      (hhaving : s.query.havingSql (s.query.mapper.bareScope s.query.model) = .ok having) :
      CountParts s model filter having
        ⟨s.query.mapper.dialect.finalize ("SELECT COUNT(*) FROM ("
          ++ ("SELECT " ++ (if s.distinct then "DISTINCT " else "") ++ output ++ " FROM "
          ++ s.query.mapper.dialect.quote model.table ++ Sql.clause "WHERE" filter.text
          ++ Sql.clause "GROUP BY" groups ++ having.text) ++ ") AS "
          ++ s.query.mapper.dialect.quote "counted"), filter.args ++ having.args⟩

theorem countSql_parts {sql : Sql} (h : s.countSql = .ok sql) :
    ∃ model filter having, s.CountParts model filter having sql := by
  obtain ⟨table, htable, h⟩ := bind_eq_ok.mp h
  obtain ⟨model, hmodel, htable⟩ := bind_eq_ok.mp htable
  obtain rfl := pure_eq_ok.mp htable
  obtain ⟨filter, hfilter, h⟩ := bind_eq_ok.mp h
  dsimp only at h
  split at h
  · next hplain =>
    obtain rfl := pure_eq_ok.mp h
    exact ⟨model, filter, _, .plain hplain hmodel hfilter⟩
  · next hplain =>
    obtain ⟨output, houtput, h⟩ := bind_eq_ok.mp h
    obtain ⟨groups, hgroups, h⟩ := bind_eq_ok.mp h
    obtain ⟨having, hhaving, h⟩ := bind_eq_ok.mp h
    obtain rfl := pure_eq_ok.mp h
    have hgrouped : s.countsPlainly = false := Bool.not_eq_true _ ▸ hplain
    exact ⟨model, filter, having, .grouped hgrouped hmodel hfilter houtput hgroups hhaving⟩

end RelMap.Select
