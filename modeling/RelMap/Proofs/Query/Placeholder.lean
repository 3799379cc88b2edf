import RelMap.Proofs.Condition.Template
import RelMap.Proofs.Query.Parts
import RelMap.Proofs.Query.Statement
import RelMap.Proofs.Query.Written

/-! Where the values of statements stand. Every statement is read from one template: first the
values that are written, then those of the conditions on rows, then those of the condition on
groups, and between them texts without placeholders. -/
namespace RelMap

open Placeholder (Closed)
open Template (ofText)

namespace Statement

def query : Statement → Query
  | .select s => s.query
  | .count s => s.query
  | .insert i => i.query
  | .update u => u.query
  | .delete d => d.query
  | .aggregate a => a.query

/-- The scope of the conditions of a statement. -/
def scope : Statement → Except Error Scope
  | .select s => return s.scope (← s.query.planJoins)
  | s => .ok (s.query.mapper.bareScope s.query.model)

/-- The conditions on rows. -/
def filters : Statement → List Condition
  | .insert _ => []
  | s => s.query.conditions

/-- The condition on groups. -/
def having? : Statement → Option Condition
  | .select s => s.query.having
  | .count s => if s.countsPlainly then none else s.query.having
  | .aggregate a => a.query.having
  | _ => none

/-- What is written, with every value in its place. -/
def data : Statement → Except Error Template
  | .insert i => .ok i.template
  | .update u => u.template
  | _ => .ok []

/-- The values that are written. -/
def written : Statement → List Value
  | .insert i => i.rows.head?.elim [] fun first => i.cells first.fieldNames
  | .update u => u.assignments.map fun assignment => assignment.2.value
  | _ => []

/-- The expressions that stand for themselves in a statement. -/
def expressions : Statement → List String
  | .select s =>
    match s.query.planJoins with
    | .ok joins => (s.passedFields joins).filter Select.isExpression
    | .error _ => []
  | .count s => s.countedFields.filter Select.isExpression
  | _ => []

/-- A template in which what is written, the conditions on rows and the condition on groups follow
one another between closed texts. -/
structure Assembles (s : Statement) (t : Template) : Prop where
  layout : ∃ scope data filter having before between after rest,
    s.scope = .ok scope ∧ s.data = .ok data ∧
    Condition.conjunctionTemplate scope s.filters = .ok filter ∧
    Condition.optionalTemplate scope s.having? = .ok having ∧
    Closed before ∧ Closed between ∧ Closed after ∧ Closed rest ∧
    t = ofText before ++ data ++ ofText between ++ filter ++ ofText after ++ having ++ ofText rest

/-- The placeholders and the arguments of a statement line up: both are read from one template. -/
structure LinesUp (s : Statement) (sql : Sql) (t : Template) : Prop where
  assembles : s.Assembles t
  sound : t.Sound
  args_eq : sql.args = t.values
  values_eq : t.values = s.written ++ s.filters.flatMap Condition.operands
    ++ s.having?.toList.flatMap Condition.operands
  text_eq : sql.text = s.query.mapper.dialect.finalize t.text
  count_eq : Placeholder.count t.text = sql.args.length
  numbered : s.query.mapper.dialect.placeholderStyle = .dollar →
    sql.text = String.ofList (t.numbered 0)

/-- The pieces of which a statement is built. -/
structure Pieces (s : Statement) (sql : Sql) (data : Template) (filter having : Sql) : Prop where
  data_eq : s.data = .ok data
  data_sound : data.Sound
  data_values : data.values = s.written
  conditions : ∃ scope, s.scope = .ok scope ∧ scope.dialect.isSome = true ∧
    Condition.conjunction scope s.filters = .ok filter ∧
    s.having?.elim (.ok ⟨"", []⟩) (Condition.render scope) = .ok having
  args_eq : sql.args = data.values ++ filter.args ++ having.args
  text_eq : ∃ before between after rest,
    Closed before ∧ Closed between ∧ Closed after ∧ Closed rest ∧
    sql.text = s.query.mapper.dialect.finalize
      (before ++ data.text ++ between ++ filter.text ++ after ++ having.text ++ rest)

variable {s : Statement} {sql : Sql}

theorem Pieces.linesUp {data : Template} {filter having : Sql}
    (h : s.Pieces sql data filter having) (hfilters : ∀ c ∈ s.filters, c.Fits)
    (hhaving : ∀ c ∈ s.having?, c.Fits) : ∃ t, s.LinesUp sql t := by
  obtain ⟨scope, hscope, hdialect, hfilter, hrender⟩ := h.conditions
  obtain ⟨before, between, after, rest, hbefore, hbetween, hafter, hrest, htext⟩ := h.text_eq
  obtain ⟨filterTemplate, hfilterTemplate, hspells⟩ :=
    Condition.conjunctionTemplate_spells hdialect hfilters hfilter
  obtain ⟨havingTemplate, hhavingTemplate, hhavingSpells⟩ :=
    Condition.optionalTemplate_spells hdialect hhaving hrender
  obtain rfl := hspells.sql_eq
  obtain rfl := hhavingSpells.sql_eq
  let t := ofText before ++ data ++ ofText between ++ filterTemplate ++ ofText after
    ++ havingTemplate ++ ofText rest
  have hsound : t.Sound := by
    apply_rules [Template.Sound.append, Template.sound_ofText, h.data_sound, hspells.sound,
      hhavingSpells.sound]
  have hvalues : t.values = data.values ++ filterTemplate.values ++ havingTemplate.values := by
    simp [t]
  have hargs : sql.args = t.values := by
    rw [hvalues, h.args_eq]
    rfl
  have htextEq : sql.text = s.query.mapper.dialect.finalize t.text := by
    rw [htext]
    simp only [t, Template.sql, Template.text_append, Template.text_ofText]
  refine ⟨t, ⟨scope, data, filterTemplate, havingTemplate, before, between, after, rest, hscope,
    h.data_eq, hfilterTemplate, hhavingTemplate, hbefore, hbetween, hafter, hrest, rfl⟩, hsound,
    hargs, ?_, htextEq, ?_, fun hdollar => ?_⟩
  · rw [hvalues, h.data_values, hspells.values_eq, hhavingSpells.values_eq]
  · rw [hsound.count_eq, hargs]
  · rw [htextEq, Dialect.finalize, hdollar]
    exact hsound.number_text

/-- A statement that writes nothing has only conditions to place. -/
theorem pieces_of_conditions {scope : Scope} {filter having : Sql} {text before after rest : String}
    (hdata : s.data = .ok []) (hwritten : s.written = []) (hscope : s.scope = .ok scope)
    (hdialect : scope.dialect.isSome = true)
    (hfilter : Condition.conjunction scope s.filters = .ok filter)
    (hhaving : s.having?.elim (.ok ⟨"", []⟩) (Condition.render scope) = .ok having)
    (hbefore : Closed before) (hafter : Closed after) (hrest : Closed rest)
    (htext : text = before ++ filter.text ++ after ++ having.text ++ rest) :
    s.Pieces ⟨s.query.mapper.dialect.finalize text, filter.args ++ having.args⟩ [] filter
      having where
  data_eq := hdata
  data_sound := .nil
  data_values := hwritten.symm
  conditions := ⟨scope, hscope, hdialect, hfilter, hhaving⟩
  args_eq := rfl
  text_eq := by
    refine ⟨before, "", after, rest, hbefore, by decide, hafter, hrest, ?_⟩
    simp [htext, Template.text]

theorem delete_pieces {d : Delete} (h : d.sql = .ok sql) :
    ∃ filter, (delete d).Pieces sql [] filter ⟨"", []⟩ := by
  obtain ⟨filter, hfilter, h⟩ := bind_eq_ok.mp h
  dsimp only at h
  split_ifs at h
  · rw [throw_bind] at h
    cases h
  obtain ⟨table, -, h⟩ := bind_eq_ok.mp h
  obtain ⟨returning, hreturning, h⟩ := bind_eq_ok.mp h
  obtain rfl := pure_eq_ok.mp h
  obtain ⟨lead, hlead, hclause⟩ := Sql.clause_eq_append (show Closed "WHERE" by decide) filter.text
  have htable : Closed ("DELETE FROM " ++ d.query.mapper.dialect.quote table) :=
    .append (by decide) (Dialect.closed_quote _ table)
  rw [← List.append_nil filter.args]
  refine ⟨filter, pieces_of_conditions (s := delete d) rfl rfl rfl rfl hfilter rfl
    (htable.append hlead) (Mapper.closed_returning hreturning) (show Closed "" by decide) ?_⟩
  simp [hclause, String.append_assoc]

theorem update_pieces {u : Update} (h : u.sql = .ok sql) :
    ∃ data filter, (update u).Pieces sql data filter ⟨"", []⟩ := by
  unfold Update.sql at h
  dsimp only at h
  split_ifs at h
  · rw [throw_bind] at h
    cases h
  obtain ⟨sets, hsets, h⟩ := bind_eq_ok.mp h
  obtain ⟨filter, hfilter, h⟩ := bind_eq_ok.mp h
  split_ifs at h
  · rw [throw_bind] at h
    cases h
  obtain ⟨table, -, h⟩ := bind_eq_ok.mp h
  obtain ⟨returning, hreturning, h⟩ := bind_eq_ok.mp h
  obtain rfl := pure_eq_ok.mp h
  obtain ⟨data, hdata, hspells⟩ := u.template_spells hsets
  obtain ⟨lead, hlead, hclause⟩ := Sql.clause_eq_append (show Closed "WHERE" by decide) filter.text
  have htable : Closed ("UPDATE " ++ u.query.mapper.dialect.quote table ++ " SET ") := by
    apply_rules [Closed.append, Dialect.closed_quote] <;> decide
  have htext : data.text = Text.joinWith ", " (sets.map Sql.text) :=
    congrArg Sql.text hspells.sql_eq
  have hvalues : data.values = sets.flatMap Sql.args := congrArg Sql.args hspells.sql_eq
  refine ⟨data, filter, hdata, hspells.sound, hspells.values_eq, ⟨_, rfl, rfl, hfilter, rfl⟩,
    by simp [hvalues], ?_⟩
  refine ⟨_, lead, returning, "", htable, hlead, Mapper.closed_returning hreturning, by decide, ?_⟩
  simp [htext, hclause, String.append_assoc, query]

theorem insert_pieces {i : Insert} (h : i.sql = .ok sql) :
    (insert i).Pieces sql i.template ⟨"", []⟩ ⟨"", []⟩ := by
  obtain ⟨model, -, h⟩ := bind_eq_ok.mp h
  cases hrows : i.rows with
  | nil =>
    rw [hrows] at h
    cases h
  | cons first rest =>
    rw [hrows] at h
    dsimp only [List.head?_cons] at h
    split at h
    · rw [throw_bind] at h
      cases h
    obtain ⟨columns, hcolumns, h⟩ := bind_eq_ok.mp h
    obtain ⟨values, hvalues, h⟩ := bind_eq_ok.mp h
    obtain ⟨conflict, hconflict, h⟩ := bind_eq_ok.mp h
    obtain ⟨returning, hreturning, h⟩ := bind_eq_ok.mp h
    obtain rfl := pure_eq_ok.mp h
    obtain ⟨hsound, hwritten, lead, hlead, htext⟩ :=
      Insert.valuesSql_eq_ok hrows (forall₂_of_mapM_eq_ok hcolumns).length_eq hvalues
    have hhead : Closed (i.verb ++ " " ++ i.query.mapper.dialect.quote model.table) :=
      (i.closed_verb.append (by decide)).append (Dialect.closed_quote _ _)
    have htail : Closed (conflict ++ returning) :=
      (Insert.closed_conflictClause hconflict).append (Mapper.closed_returning hreturning)
    have hdata : i.template.values = (insert i).written := by
      simp [written, hrows, hwritten]
    refine ⟨rfl, hsound, hdata, ⟨_, rfl, rfl, rfl, rfl⟩, by simp [hwritten], ?_⟩
    refine ⟨_, conflict ++ returning, "", "", hhead.append hlead, htail, by decide, by decide, ?_⟩
    simp [htext, String.append_assoc, query]

theorem aggregate_pieces {a : Aggregate} (h : a.sql = .ok sql) :
    ∃ filter having, (aggregate a).Pieces sql [] filter having := by
  obtain ⟨outputs, houtputs, h⟩ := bind_eq_ok.mp h
  dsimp only at h
  split_ifs at h
  · rw [throw_bind] at h
    cases h
  obtain ⟨table, -, h⟩ := bind_eq_ok.mp h
  obtain ⟨filter, hfilter, h⟩ := bind_eq_ok.mp h
  obtain ⟨groups, hgroups, h⟩ := bind_eq_ok.mp h
  obtain ⟨havingSql, hhavingSql, h⟩ := bind_eq_ok.mp h
  obtain ⟨order, horder, h⟩ := bind_eq_ok.mp h
  obtain rfl := pure_eq_ok.mp h
  obtain ⟨having, behind, hhaving, hbehind, rfl⟩ := Query.havingSql_eq_ok hhavingSql
  obtain ⟨lead, hlead, hclause⟩ := Sql.clause_eq_append (show Closed "WHERE" by decide) filter.text
  have hbefore : Closed ("SELECT " ++ Text.joinWith ", " outputs ++ " FROM "
      ++ a.query.mapper.dialect.quote table) := by
    have houtput : Closed (Text.joinWith ", " outputs) :=
      .joinWith (by decide) (Aggregate.closed_outputs houtputs)
    apply_rules [Closed.append, Dialect.closed_quote] <;> decide
  have hgroup : Closed (Sql.clause "GROUP BY" (Text.joinWith ", " groups)) :=
    Sql.closed_clause (by decide) (.joinWith (by decide)
      (closed_of_mapM hgroups fun field _ text => Aggregate.closed_column))
  have horderBy : Closed (Sql.clause "ORDER BY" (Text.joinWith ", " order)) :=
    Sql.closed_clause (by decide) (.joinWith (by decide) (Aggregate.closed_orderTerms horder))
  have hpaging := a.query.mapper.dialect.closed_pagingClause a.query.limit a.query.offset
  refine ⟨filter, having, pieces_of_conditions (s := aggregate a) rfl rfl rfl rfl hfilter hhaving
    (hbefore.append hlead) (hgroup.append hbehind) (horderBy.append hpaging) ?_⟩
  simp only [hclause, String.append_assoc]

theorem closed_of_passed {s : Select} {joins : List Join} (hjoins : s.query.planJoins = .ok joins)
    (hclosed : ∀ e ∈ (select s).expressions, Closed e) :
    ∀ field ∈ s.passedFields joins, Select.isExpression field = true → Closed field := by
  intro field hfield hexpression
  refine hclosed field ?_
  simp only [expressions, hjoins]
  exact List.mem_filter.mpr ⟨hfield, hexpression⟩

theorem select_pieces {s : Select} (hclosed : ∀ e ∈ (select s).expressions, Closed e)
    (h : s.sql = .ok sql) : ∃ filter having, (select s).Pieces sql [] filter having := by
  obtain ⟨statement, hstatement, h⟩ := bind_eq_ok.mp h
  obtain rfl := pure_eq_ok.mp h
  obtain ⟨model, distinct, output, filter, order, groups, havingSql, inside, hparts⟩ :=
    Select.statement_parts hstatement
  have hscope : (select s).scope = .ok (s.scope statement.joins) := by
    simp only [scope, hparts.joins_eq]
    rfl
  obtain ⟨having, behind, hhaving, hbehind, rfl⟩ := Query.havingSql_eq_ok hparts.having_eq
  obtain ⟨lead, hlead, hclause⟩ := Sql.clause_eq_append (show Closed "WHERE" by decide) filter.text
  have hpassed := closed_of_passed hparts.joins_eq hclosed
  have hhead := Select.closed_head hpassed hparts.distinct_eq hparts.output_eq
  have htable := s.query.mapper.dialect.closed_tableAs model.table s.query.label
  have hjoin := Join.closed_joinSql s.query.mapper.dialect statement.joins
  have hgroup := Select.closed_groupClause hpassed hparts.groups_eq
  have horderBy := Select.closed_orderClause hpassed hparts.order_eq
  have hpaging := s.query.mapper.dialect.closed_pagingClause s.query.limit s.query.offset
  refine ⟨filter, having, ?_⟩
  rw [hparts.sql_eq]
  cases inside with
  | true =>
    have hsubquery := hhead.append ((show Closed "(SELECT * FROM " by decide).append htable)
    have hlabel : Closed (") AS " ++ s.query.mapper.dialect.quote s.query.label) :=
      .append (by decide) (Dialect.closed_quote _ _)
    have hwindow := (horderBy.append hpaging).append hlabel
    refine pieces_of_conditions (s := select s) rfl rfl hscope rfl hparts.filter_eq hhaving
      (hsubquery.append hlead) (((hwindow.append hjoin).append hgroup).append hbehind) horderBy ?_
    simp [Select.sourceSql, hclause, String.append_assoc]
  | false =>
    refine pieces_of_conditions (s := select s) rfl rfl hscope rfl hparts.filter_eq hhaving
      (((hhead.append htable).append hjoin).append hlead) (hgroup.append hbehind)
      (horderBy.append hpaging) ?_
    simp [Select.sourceSql, hclause, String.append_assoc]

theorem count_pieces {s : Select} (hclosed : ∀ e ∈ (count s).expressions, Closed e)
    (h : s.countSql = .ok sql) : ∃ filter having, (count s).Pieces sql [] filter having := by
  have hclause : ∀ filter : Sql, ∃ lead, Closed lead ∧
      Sql.clause "WHERE" filter.text = lead ++ filter.text :=
    fun filter => Sql.clause_eq_append (by decide) filter.text
  have htable : ∀ table, Closed (s.query.mapper.dialect.quote table) := fun table =>
    Dialect.closed_quote _ table
  obtain ⟨model, filter, havingSql, hparts⟩ := Select.countSql_parts h
  cases hparts with
  | plain hplain _ hfilter =>
    obtain ⟨lead, hlead, hclause⟩ := hclause filter
    have hnone : (count s).having?.elim (.ok ⟨"", []⟩)
        (Condition.render (s.query.mapper.bareScope s.query.model)) = .ok ⟨"", []⟩ := by
      rw [show (count s).having? = none from if_pos hplain]
      rfl
    have hhead : Closed ("SELECT COUNT(*) FROM " ++ s.query.mapper.dialect.quote model.table
        ++ lead) :=
      ((show Closed "SELECT COUNT(*) FROM " by decide).append (htable _)).append hlead
    rw [← List.append_nil filter.args]
    refine ⟨filter, ⟨"", []⟩, pieces_of_conditions (s := count s) rfl rfl rfl rfl hfilter hnone
      hhead (show Closed "" by decide) (show Closed "" by decide) ?_⟩
    simp [hclause, String.append_assoc]
  | @grouped _ output groups hplain _ hfilter houtput hgroups hhavingSql =>
    obtain ⟨lead, hlead, hclause⟩ := hclause filter
    have hcounted : s.countedFields = ([s.distinctOn, s.fields, s.query.groupBy].find?
        (!·.isEmpty)).getD [] ++ s.query.groupBy := if_neg (by simp [hplain])
    have hpassed : ∀ field ∈ s.countedFields, Select.isExpression field = true → Closed field :=
      fun field hfield hexpression => hclosed field (List.mem_filter.mpr ⟨hfield, hexpression⟩)
    rw [hcounted, List.forall_mem_append] at hpassed
    have houtput : Closed output := Select.closed_countedSql hpassed.1 houtput
    obtain ⟨having, behind, hhaving, hbehind, rfl⟩ := Query.havingSql_eq_ok hhavingSql
    rw [← show (count s).having? = s.query.having from if_neg (by simp [hplain])] at hhaving
    have hhead := s.closed_countHead houtput
    have hgroup : Closed (Sql.clause "GROUP BY" groups) :=
      Sql.closed_clause (by decide) (Select.closed_columnList hpassed.2 hgroups)
    have hcount : Closed (") AS " ++ s.query.mapper.dialect.quote "counted") :=
      .append (by decide) (Dialect.closed_quote _ _)
    refine ⟨filter, having, pieces_of_conditions (s := count s) rfl rfl rfl rfl hfilter hhaving
      ((hhead.append (htable model.table)).append hlead) (hgroup.append hbehind) hcount ?_⟩
    simp only [hclause, String.append_assoc]

/-- The placeholders of every statement that can be built stand where its arguments were bound,
whatever names it is made of. -/
theorem sql_linesUp (s : Statement) {sql : Sql} (hfilters : ∀ c ∈ s.filters, c.Fits)
    (hhaving : ∀ c ∈ s.having?, c.Fits) (hclosed : ∀ e ∈ s.expressions, Closed e)
    (h : s.sql = .ok sql) : ∃ t, s.LinesUp sql t := by
  have hpieces : ∃ data filter having, s.Pieces sql data filter having := by
    cases s with
    | select s => exact ⟨[], select_pieces hclosed h⟩
    | count s => exact ⟨[], count_pieces hclosed h⟩
    | insert i => exact ⟨_, _, _, insert_pieces h⟩
    | update u =>
      obtain ⟨data, filter, hpieces⟩ := update_pieces h
      exact ⟨data, filter, _, hpieces⟩
    | delete d =>
      obtain ⟨filter, hpieces⟩ := delete_pieces h
      exact ⟨[], filter, _, hpieces⟩
    | aggregate a => exact ⟨[], aggregate_pieces h⟩
  obtain ⟨data, filter, having, hpieces⟩ := hpieces
  exact hpieces.linesUp hfilters hhaving

/-- A table and a column whose names have a quote and a question mark. -/
def oddNames : Registry := .ofModels [
  { name := "Odd"
    table := "o\"dd?"
    fields := [{ name := "id", primaryKey := true },
      { name := "what?", column := some "w\"hat?" }] }]

/-- Conditions, groups and an expression on them. -/
def groupOdd : Statement := .select
  { query := { Query.ofModel { registry := oddNames, dialect := .postgresql } "Odd" with
      conditions := [.any [FieldRef.satisfies ⟨"what?", none⟩ (.oneOf [.int 1, .null]),
        .raw "note = '?' AND size = ?" [.int 4]]]
      groupBy := ["what?"]
      having := some (.raw "COUNT(*) > ?" [.int 2]) }
    fields := ["what?", "MAX(id)"] }

theorem sql_linesUp_groupOdd : ∃ sql t, groupOdd.sql = .ok sql ∧
    sql.text = "SELECT \"o\".\"w\"\"hat?\", MAX(id) FROM \"o\"\"dd?\" AS \"o\" " ++
      "WHERE (\"o\".\"w\"\"hat?\" IN ($1, $2)) OR (note = '?' AND size = $3) " ++
      "GROUP BY \"o\".\"w\"\"hat?\" HAVING COUNT(*) > $4" ∧
    groupOdd.LinesUp sql t := by
  have htext : (groupOdd.sql.map Sql.text).toOption =
      some ("SELECT \"o\".\"w\"\"hat?\", MAX(id) FROM \"o\"\"dd?\" AS \"o\" " ++
        "WHERE (\"o\".\"w\"\"hat?\" IN ($1, $2)) OR (note = '?' AND size = $3) " ++
        "GROUP BY \"o\".\"w\"\"hat?\" HAVING COUNT(*) > $4") := by
    decide +kernel
  have hfits : ∀ c ∈ groupOdd.filters, c.Fits := by
    intro c hc sql args hleaf
    obtain rfl := List.mem_singleton.mp hc
    obtain ⟨rfl, rfl⟩ : sql = "note = '?' AND size = ?" ∧ args = [.int 4] := by
      simpa [Condition.leaves, Condition.leavesOfAll, FieldRef.satisfies] using hleaf
    exact ⟨by decide, by decide⟩
  have hhaving : ∀ c ∈ groupOdd.having?, c.Fits := by
    intro c hc sql args hleaf
    obtain rfl := Option.some.inj hc
    obtain ⟨rfl, rfl⟩ : sql = "COUNT(*) > ?" ∧ args = [.int 2] := by
      simpa [Condition.leaves] using hleaf
    exact ⟨by decide, by decide⟩
  have hexpressions : groupOdd.expressions = ["MAX(id)"] := by decide +kernel
  cases hsql : groupOdd.sql with
  | error e => simp [hsql, Except.map, Except.toOption] at htext
  | ok sql =>
    rw [hsql] at htext
    obtain ⟨t, ht⟩ := sql_linesUp groupOdd hfits hhaving (by rw [hexpressions]; decide) hsql
    exact ⟨sql, t, rfl, Option.some.inj htext, ht⟩

end Statement
end RelMap
