import RelMap.Proofs.Dialect.Placeholder
import RelMap.Proofs.Pointwise
import RelMap.Query.Aggregate
import RelMap.Query.Insert
import RelMap.Query.Select

/-! What stands around the values of statements. Names are quoted wherever they come from, and
the words between them have neither quotes nor placeholders; only expressions that stand for
themselves are taken as they are. -/
namespace RelMap

open Placeholder (Closed)

theorem closed_of_mapM {α : Type} {f : α → Except Error String} {l : List α} {texts : List String}
    (h : l.mapM f = .ok texts) (hf : ∀ a ∈ l, ∀ text, f a = .ok text → Closed text) :
    ∀ text ∈ texts, Closed text := by
  intro text htext
  obtain ⟨a, ha, hok⟩ := exists_left_of_forall₂ (forall₂_of_mapM_eq_ok h) htext
  exact hf a ha text hok

theorem Sql.closed_clause {keyword body : String} (hkeyword : Closed keyword)
    (hbody : Closed body) : Closed (clause keyword body) := by
  unfold clause
  split_ifs
  · decide
  · exact .append (by decide) hbody
  · exact (((show Closed " " by decide).append hkeyword).append (by decide)).append hbody

/-- A clause is its body behind closed words. -/
theorem Sql.clause_eq_append {keyword : String} (hkeyword : Closed keyword) (body : String) :
    ∃ lead, Closed lead ∧ clause keyword body = lead ++ body := by
  unfold clause
  split_ifs with hbody
  · exact ⟨"", by decide, by simpa using hbody.symm⟩
  · exact ⟨" ", by decide, rfl⟩
  · have hlead : Closed (" " ++ keyword ++ " ") :=
      ((show Closed " " by decide).append hkeyword).append (by decide)
    exact ⟨" " ++ keyword ++ " ", hlead, rfl⟩

theorem Dialect.closed_pagingClause (d : Dialect) (limit offset : Option Nat) :
    Closed (Sql.clause "" (d.paging limit offset)) :=
  Sql.closed_clause (by decide) (d.closed_paging limit offset)

theorem Dialect.closed_tableAs (d : Dialect) (table label : String) :
    Closed (d.quote table ++ " AS " ++ d.quote label) :=
  ((d.closed_quote table).append (by decide)).append (d.closed_quote label)

theorem Mapper.closed_quoteAll (m : Mapper) (identifiers : List String) :
    Closed (m.quoteAll identifiers) :=
  .joinWith_map (by decide) fun identifier _ => m.dialect.closed_quote identifier

theorem Mapper.closed_returning {m : Mapper} {model : String} {fields : List String}
    {text : String} (h : m.returning model fields = .ok text) : Closed text := by
  unfold returning at h
  split_ifs at h
  · obtain rfl := Except.ok.inj h
    decide
  · obtain ⟨columns, -, h⟩ := bind_eq_ok.mp h
    obtain rfl := pure_eq_ok.mp h
    exact .append (by decide) (m.closed_quoteAll columns)

theorem Join.closed_sql (d : Dialect) (j : Join) : Closed (j.sql d) := by
  have hkind : Closed j.kind.sql := by cases j.kind <;> decide
  unfold Join.sql JoinPredicate.sql
  apply_rules [Closed.append, Dialect.closed_quote] <;> decide

theorem Join.closed_joinSql (d : Dialect) (joins : List Join) :
    Closed (Text.joinWith "" (joins.map fun j => " " ++ j.sql d)) :=
  .joinWith_map (by decide) fun j _ => .append (by decide) (j.closed_sql d)

theorem Query.havingSql_eq_ok {q : Query} {scope : Scope} {sql : Sql}
    (h : q.havingSql scope = .ok sql) : ∃ having lead,
      q.having.elim (.ok ⟨"", []⟩) (Condition.render scope) = .ok having ∧ Closed lead ∧
      sql = ⟨lead ++ having.text, having.args⟩ := by
  unfold havingSql at h
  cases hcondition : q.having with
  | none =>
    rw [hcondition] at h
    obtain rfl := Except.ok.inj h
    exact ⟨⟨"", []⟩, "", rfl, by decide, rfl⟩
  | some condition =>
    rw [hcondition] at h
    obtain ⟨having, hhaving, h⟩ := bind_eq_ok.mp h
    obtain rfl := pure_eq_ok.mp h
    obtain ⟨lead, hlead, hclause⟩ :=
      Sql.clause_eq_append (show Closed "HAVING" by decide) having.text
    exact ⟨having, lead, hhaving, hlead, by rw [hclause]⟩

namespace Select

variable {s : Select} {joins : List Join}

/-- Whether a field is an expression that stands for itself. -/
def isExpression (field : String) : Bool := Text.contains field '.' || Text.contains field '('

/-- The fields that a select with these joins takes as they are when they are expressions. -/
def passedFields (s : Select) (joins : List Join) : List String :=
  (if s.query.mapper.dialect.supportsDistinctOn then s.distinctOn else [])
    ++ (if joins.isEmpty then s.listedFields else [])
    ++ s.query.orderBy.map SortTerm.field ++ s.groupedFields

/-- Whether records are counted without a subquery. -/
def countsPlainly (s : Select) : Bool := !s.distinct && s.query.groupBy.isEmpty

/-- The fields that a count takes as they are when they are expressions. -/
def countedFields (s : Select) : List String :=
  if s.countsPlainly then []
  else ([s.distinctOn, s.fields, s.query.groupBy].find? (!·.isEmpty)).getD [] ++ s.query.groupBy

theorem closed_columnExpr {label field expr : String}
    (hfield : isExpression field = true → Closed field) (h : s.columnExpr label field = .ok expr) :
    Closed expr := by
  unfold columnExpr at h
  split_ifs at h with hexpression hlabel
  · obtain rfl := pure_eq_ok.mp h
    exact hfield hexpression
  · obtain ⟨column, -, h⟩ := bind_eq_ok.mp h
    obtain rfl := pure_eq_ok.mp h
    exact Dialect.closed_quote _ column
  · obtain ⟨column, -, h⟩ := bind_eq_ok.mp h
    obtain rfl := pure_eq_ok.mp h
    exact ((Dialect.closed_quote _ label).append (by decide)).append (Dialect.closed_quote _ column)

theorem closed_columnList {label text : String} {fields : List String}
    (hfields : ∀ field ∈ fields, isExpression field = true → Closed field)
    (h : s.columnList label fields = .ok text) : Closed text := by
  obtain ⟨exprs, hexprs, h⟩ := bind_eq_ok.mp h
  obtain rfl := pure_eq_ok.mp h
  exact .joinWith (by decide) (closed_of_mapM hexprs fun field hfield expr =>
    closed_columnExpr (hfields field hfield))

theorem closed_labelledColumn (d : Dialect) (label column : String) :
    Closed (labelledColumn d label column) := by
  unfold labelledColumn
  apply_rules [Closed.append, Dialect.closed_quote] <;> decide

theorem closed_joinedColumns {columns : List String} (h : s.joinedColumns joins = .ok columns) :
    ∀ column ∈ columns, Closed column := by
  obtain ⟨groups, hgroups, h⟩ := bind_eq_ok.mp h
  obtain rfl := pure_eq_ok.mp h
  intro column hcolumn
  obtain ⟨group, hgroup, hcolumn⟩ := List.mem_flatten.mp hcolumn
  obtain ⟨j, -, hj⟩ := exists_left_of_forall₂ (forall₂_of_mapM_eq_ok hgroups) hgroup
  split at hj
  · obtain rfl := Except.ok.inj hj
    cases hcolumn
  · obtain ⟨model, -, hj⟩ := bind_eq_ok.mp hj
    obtain rfl := pure_eq_ok.mp hj
    obtain ⟨name, -, rfl⟩ := List.mem_map.mp hcolumn
    exact closed_labelledColumn _ _ name

section Passed

variable (hpassed : ∀ field ∈ s.passedFields joins, isExpression field = true → Closed field)
include hpassed

theorem closed_distinctSql {text : String} (h : s.distinctSql = .ok text) : Closed text := by
  unfold distinctSql at h
  split_ifs at h with hon hdistinct
  · obtain ⟨columns, hcolumns, h⟩ := bind_eq_ok.mp h
    obtain rfl := pure_eq_ok.mp h
    have hsupports := (Bool.and_eq_true_iff.mp hon).2
    have hcolumnsClosed : Closed columns := closed_columnList (fun field hfield =>
      hpassed field (by simp [passedFields, hsupports, hfield])) hcolumns
    exact ((show Closed "DISTINCT ON (" by decide).append hcolumnsClosed).append (by decide)
  · obtain rfl := pure_eq_ok.mp h
    decide
  · obtain rfl := pure_eq_ok.mp h
    decide

theorem closed_outputSql {model : Model} {text : String} (h : s.outputSql model joins = .ok text) :
    Closed text := by
  unfold outputSql at h
  dsimp only at h
  split_ifs at h with hjoins hlisted
  · obtain rfl := pure_eq_ok.mp h
    exact (Dialect.closed_quote _ _).append (by decide)
  · exact closed_columnList (fun field hfield =>
      hpassed field (by simp [passedFields, hjoins, hfield])) h
  · obtain ⟨own, -, h⟩ := bind_eq_ok.mp h
    obtain ⟨joined, hjoined, h⟩ := bind_eq_ok.mp h
    obtain rfl := pure_eq_ok.mp h
    refine .joinWith (by decide) fun column hcolumn => ?_
    rcases List.mem_append.mp hcolumn with hcolumn | hcolumn
    · obtain ⟨name, -, rfl⟩ := List.mem_map.mp hcolumn
      exact closed_labelledColumn _ _ name
    · exact closed_joinedColumns hjoined column hcolumn

theorem closed_head {distinct output : String} {model : Model}
    (hdistinct : s.distinctSql = .ok distinct) (houtput : s.outputSql model joins = .ok output) :
    Closed ("SELECT " ++ distinct ++ output ++ " FROM ") := by
  have hdistinct := closed_distinctSql hpassed hdistinct
  have houtput := closed_outputSql hpassed houtput
  exact (((show Closed "SELECT " by decide).append hdistinct).append houtput).append (by decide)

theorem closed_orderClause {label text : String} (h : s.orderSql label = .ok text) :
    Closed (Sql.clause "ORDER BY" text) := by
  obtain ⟨terms, hterms, h⟩ := bind_eq_ok.mp h
  obtain rfl := pure_eq_ok.mp h
  refine Sql.closed_clause (by decide) (.joinWith (by decide)
    (closed_of_mapM hterms fun term hterm text htext => ?_))
  obtain ⟨expr, hexpr, htext⟩ := bind_eq_ok.mp htext
  obtain rfl := pure_eq_ok.mp htext
  have hmem : term.field ∈ s.query.orderBy.map SortTerm.field := List.mem_map_of_mem hterm
  have hterm : term.field ∈ s.passedFields joins := by
    simp only [passedFields, List.mem_append, hmem, or_true, true_or]
  exact Dialect.closed_orderTerm _ (closed_columnExpr (hpassed _ hterm) hexpr) _ _

theorem closed_groupClause {label text : String}
    (h : s.columnList label s.groupedFields = .ok text) : Closed (Sql.clause "GROUP BY" text) :=
  Sql.closed_clause (by decide) (closed_columnList (fun field hfield =>
    hpassed field (by simp [passedFields, hfield])) h)

end Passed

theorem closed_countedSql {output : String}
    (hfields : ∀ field ∈ ([s.distinctOn, s.fields, s.query.groupBy].find? (!·.isEmpty)).getD [],
      isExpression field = true → Closed field)
    (h : s.countedSql = .ok output) : Closed output := by
  unfold countedSql at h
  split at h
  · next fields hlisted => exact closed_columnList (by simpa [hlisted] using hfields) h
  · obtain rfl := Except.ok.inj h
    decide

theorem closed_countHead (s : Select) {output : String} (houtput : Closed output) :
    Closed ("SELECT COUNT(*) FROM (" ++
      ("SELECT " ++ (if s.distinct = true then "DISTINCT " else "") ++ output ++ " FROM ")) := by
  have hdistinct : Closed (if s.distinct = true then "DISTINCT " else "") := by
    split_ifs <;> decide
  exact .append (by decide)
    ((((show Closed "SELECT " by decide).append hdistinct).append houtput).append (by decide))

end Select

namespace Insert

variable {i : Insert}

theorem closed_verb (i : Insert) : Closed i.verb := by
  unfold verb
  split <;> decide

theorem closed_upsertClause {columns target set : List String} {text : String}
    (h : i.upsertClause columns target set = .ok text) : Closed text := by
  obtain ⟨target, -, h⟩ := bind_eq_ok.mp h
  obtain ⟨set, -, h⟩ := bind_eq_ok.mp h
  have htarget : Closed (" ON CONFLICT (" ++ i.query.mapper.quoteAll target ++ ") DO ") :=
    ((show Closed " ON CONFLICT (" by decide).append (i.query.mapper.closed_quoteAll target)).append
      (by decide)
  dsimp only at h
  split_ifs at h
  · rw [throw_bind] at h
    cases h
  · obtain rfl := pure_eq_ok.mp h
    refine (show Closed " ON DUPLICATE KEY UPDATE " by decide).append
      (.joinWith_map (by decide) fun c _ => ?_)
    apply_rules [Closed.append, Dialect.closed_quote] <;> decide
  · obtain rfl := pure_eq_ok.mp h
    exact htarget.append (by decide)
  · obtain rfl := pure_eq_ok.mp h
    refine (htarget.append (by decide)).append (.joinWith_map (by decide) fun c _ => ?_)
    apply_rules [Closed.append, Dialect.closed_quote]
    decide

theorem closed_conflictClause {columns : List String} {text : String}
    (h : i.conflictClause columns = .ok text) : Closed text := by
  unfold conflictClause at h
  split at h
  · obtain rfl := Except.ok.inj h
    decide
  · exact closed_upsertClause h
  · exact closed_upsertClause h
  · obtain rfl := Except.ok.inj h
    decide

end Insert

namespace Aggregate

variable {a : Aggregate}

theorem closed_column {field text : String} (h : a.column field = .ok text) : Closed text := by
  obtain ⟨column, -, h⟩ := bind_eq_ok.mp h
  obtain rfl := pure_eq_ok.mp h
  exact Dialect.closed_quote _ column

theorem closed_callSql {call : AggregateCall} {text : String} (h : a.callSql call = .ok text) :
    Closed text := by
  have hfunction : Closed call.function.sql := by cases call.function <;> decide
  unfold callSql at h
  split at h
  · obtain rfl := Except.ok.inj h
    exact hfunction.append (by decide)
  · obtain ⟨column, hcolumn, h⟩ := bind_eq_ok.mp h
    obtain rfl := pure_eq_ok.mp h
    exact ((hfunction.append (by decide)).append (closed_column hcolumn)).append (by decide)

theorem closed_outputs {texts : List String} (h : a.outputs = .ok texts) :
    ∀ text ∈ texts, Closed text := by
  obtain ⟨fields, hfields, h⟩ := bind_eq_ok.mp h
  obtain ⟨calls, hcalls, h⟩ := bind_eq_ok.mp h
  obtain rfl := pure_eq_ok.mp h
  intro text htext
  rcases List.mem_append.mp htext with htext | htext
  · exact closed_of_mapM hfields (fun field _ text => closed_column) text htext
  · refine closed_of_mapM hcalls (fun g _ text hg => ?_) text htext
    obtain ⟨call, hcall, hg⟩ := bind_eq_ok.mp hg
    obtain rfl := pure_eq_ok.mp hg
    exact ((closed_callSql hcall).append (by decide)).append (Dialect.closed_quote _ _)

theorem closed_orderTerms {texts : List String} (h : a.orderTerms = .ok texts) :
    ∀ text ∈ texts, Closed text := by
  obtain ⟨fields, hfields, h⟩ := bind_eq_ok.mp h
  obtain ⟨calls, hcalls, h⟩ := bind_eq_ok.mp h
  obtain rfl := pure_eq_ok.mp h
  intro text htext
  rcases List.mem_append.mp htext with htext | htext
  · refine closed_of_mapM hfields (fun term _ text hterm => ?_) text htext
    obtain ⟨column, hcolumn, hterm⟩ := bind_eq_ok.mp hterm
    obtain rfl := pure_eq_ok.mp hterm
    exact Dialect.closed_orderTerm _ (closed_column hcolumn) _ _
  · refine closed_of_mapM hcalls (fun term _ text hterm => ?_) text htext
    obtain ⟨call, hcall, hterm⟩ := bind_eq_ok.mp hterm
    obtain rfl := pure_eq_ok.mp hterm
    exact Dialect.closed_orderTerm _ (closed_callSql hcall) _ _

end Aggregate
end RelMap
