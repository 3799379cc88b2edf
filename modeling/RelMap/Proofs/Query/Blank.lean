import RelMap.Proofs.Condition.Blank
import RelMap.Proofs.Join.Run
import RelMap.Proofs.Query.Statement

/-! Statements without their values. No value reaches the text of a statement, nor does it decide
whether the statement can be built: both are the same when all values are forgotten. -/
namespace RelMap

/-- Forgets what a filter of related records compares with. -/
def Include.blank (i : Include) : Include := { i with filter := i.filter.map Condition.blank }

/-- Forgets what the conditions of a query compare with. -/
def Query.blank (q : Query) : Query :=
  { q with
    conditions := q.conditions.map Condition.blank
    includes := q.includes.map fun (path, i) => (path, i.blank)
    having := q.having.map Condition.blank }

/-- Forgets the values of a record, and keeps its fields. -/
def Record.blank (r : Record) : Record :=
  { fields := r.fields.map fun (field, _) => (field, .null) }

/-- Forgets what a field is set to, or by how much it changes. -/
def Assignment.blank : Assignment → Assignment
  | .set _ => .set .null
  | .increment _ => .increment 0
  | .decrement _ => .decrement 0

def Select.blank (s : Select) : Select := { s with query := s.query.blank }

def Insert.blank (i : Insert) : Insert :=
  { i with query := i.query.blank, rows := i.rows.map Record.blank }

def Update.blank (u : Update) : Update :=
  { u with
    query := u.query.blank
    assignments := u.assignments.map fun (field, assignment) => (field, assignment.blank) }

def Delete.blank (d : Delete) : Delete := { d with query := d.query.blank }

def Aggregate.blank (a : Aggregate) : Aggregate := { a with query := a.query.blank }

/-- Forgets all values of a statement. -/
def Statement.blank : Statement → Statement
  | .select s => .select s.blank
  | .count s => .count s.blank
  | .insert i => .insert i.blank
  | .update u => .update u.blank
  | .delete d => .delete d.blank
  | .aggregate a => .aggregate a.blank

namespace Query

variable (q : Query)

theorem planJoins_blank : q.blank.planJoins = q.planJoins := by
  have hkeys : OrderedMap.keys q.blank.includes = OrderedMap.keys q.includes := by
    simp [blank, OrderedMap.keys]
  unfold planJoins
  rw [hkeys]
  rfl

theorem havingSql_blank (scope : Scope) :
    (q.blank.havingSql scope).map Sql.text = (q.havingSql scope).map Sql.text := by
  unfold havingSql blank
  cases q.having with
  | none => rfl
  | some condition =>
    refine map_bind_congr (Condition.render_blank scope condition) fun sql other h => ?_
    exact congrArg (fun text => Except.ok (Sql.clause "HAVING" text)) h

end Query

namespace Select

variable (s : Select)

theorem statement_blank :
    s.blank.statement.map (fun st => st.sql.text) = s.statement.map fun st => st.sql.text := by
  have hmentions : Condition.anyMentionsOther s.blank.query.model s.blank.query.conditions =
      Condition.anyMentionsOther s.query.model s.query.conditions :=
    Condition.anyMentionsOther_blank s.query.model s.query.conditions
  unfold statement
  dsimp only
  rw [hmentions]
  refine bind_map_congr fun model => ?_
  rw [show s.blank.query.planJoins = s.query.planJoins from s.query.planJoins_blank]
  refine bind_map_congr fun joins => ?_
  refine bind_map_congr (x := s.distinctSql) fun distinct => ?_
  refine bind_map_congr (x := s.outputSql model joins) fun output => ?_
  refine map_bind_congr (Condition.conjunction_blank (s.scope joins) s.query.conditions)
    fun filter other hfilter => ?_
  refine bind_map_congr (x := s.orderSql s.query.label) fun order => ?_
  rw [hfilter]
  refine ite_map_congr ?_ ?_
  · rfl
  refine bind_map_congr (x := s.columnList s.query.label s.groupedFields) fun groups => ?_
  refine map_bind_congr (s.query.havingSql_blank (s.scope joins)) fun having other hhaving => ?_
  rw [hhaving]
  rfl

theorem sql_blank : s.blank.sql.map Sql.text = s.sql.map Sql.text :=
  map_bind_congr s.statement_blank fun _ _ h => congrArg Except.ok h

theorem countSql_blank : s.blank.countSql.map Sql.text = s.countSql.map Sql.text := by
  let scope := s.query.mapper.bareScope s.query.model
  unfold countSql
  refine bind_map_congr fun table => ?_
  refine map_bind_congr (Condition.conjunction_blank scope s.query.conditions)
    fun filter other hfilter => ?_
  dsimp only
  rw [hfilter]
  refine ite_map_congr rfl ?_
  refine bind_map_congr (x := s.countedSql) fun output => ?_
  refine bind_map_congr (x := s.columnList "" s.query.groupBy) fun groups => ?_
  refine map_bind_congr (s.query.havingSql_blank scope) fun having other hhaving => ?_
  rw [hhaving]
  rfl

end Select

theorem Record.fieldNames_blank (r : Record) : r.blank.fieldNames = r.fieldNames := by
  simp [fieldNames, blank, OrderedMap.keys]

namespace Insert

variable (i : Insert)

theorem hasFields_blank (fields : List String) (row : Record) :
    hasFields fields row.blank = hasFields fields row := by
  have hcontains : row.blank.contains = row.contains := by
    funext name
    have hnames : OrderedMap.keys row.blank.fields = OrderedMap.keys row.fields :=
      row.fieldNames_blank
    rw [Bool.eq_iff_iff, Record.contains, Record.contains, OrderedMap.contains,
      OrderedMap.contains, OrderedMap.find?_isSome_iff, OrderedMap.find?_isSome_iff, hnames]
  rw [hasFields, hasFields, hcontains]
  simp [Record.size, Record.blank]

theorem oddRow?_blank (fields : List String) (rows : List Record) :
    oddRow? fields (rows.map Record.blank) = oddRow? fields rows := by
  unfold oddRow?
  rw [List.findIdx?_map]
  congr 1
  funext row
  exact congrArg not (hasFields_blank fields row)

theorem valuesSql_blank (columns : List String) :
    i.blank.valuesSql columns = i.valuesSql columns := by
  unfold valuesSql blank
  rw [List.length_map]
  rfl

theorem sql_blank : i.blank.sql.map Sql.text = i.sql.map Sql.text := by
  unfold sql
  refine bind_map_congr fun model => ?_
  cases hrows : i.rows with
  | nil =>
    rw [show i.blank.rows = [] by simp [blank, hrows]]
    rfl
  | cons first rest =>
    have hblank : i.blank.rows = (first :: rest).map Record.blank := by simp [blank, hrows]
    have hhead : i.blank.rows.head? = some first.blank := by rw [hblank]; rfl
    rw [hhead]
    dsimp only
    rw [hblank, Record.fieldNames_blank, oddRow?_blank]
    dsimp only [List.head?_cons]
    cases oddRow? first.fieldNames (first :: rest) with
    | some index => rfl
    | none =>
      refine bind_map_congr fun columns => ?_
      rw [valuesSql_blank]
      refine bind_map_congr fun values => ?_
      refine bind_map_congr (x := i.conflictClause columns) fun conflict => ?_
      exact bind_map_congr fun returning => rfl

end Insert

theorem Update.assignmentSql_blank (u : Update) :
    u.blank.assignmentSql.map (List.map Sql.text) = u.assignmentSql.map (List.map Sql.text) := by
  unfold assignmentSql blank
  rw [List.mapM_map]
  refine mapM_map_congr fun (field, assignment) _ => ?_
  refine bind_map_congr fun column => ?_
  cases assignment <;> rfl

theorem Update.sql_blank (u : Update) : u.blank.sql.map Sql.text = u.sql.map Sql.text := by
  unfold sql
  dsimp only
  rw [show u.blank.assignments.isEmpty = u.assignments.isEmpty from List.isEmpty_map]
  refine ite_map_congr rfl ?_
  refine map_bind_congr u.assignmentSql_blank fun sets others hsets => ?_
  refine map_bind_congr (Condition.conjunction_blank (u.query.mapper.bareScope u.query.model)
    u.query.conditions) fun filter other hfilter => ?_
  rw [hfilter, hsets]
  refine ite_map_congr rfl ?_
  refine bind_map_congr fun table => ?_
  exact bind_map_congr fun returning => rfl

theorem Delete.sql_blank (d : Delete) : d.blank.sql.map Sql.text = d.sql.map Sql.text := by
  unfold sql
  refine map_bind_congr (Condition.conjunction_blank (d.query.mapper.bareScope d.query.model)
    d.query.conditions) fun filter other hfilter => ?_
  dsimp only
  rw [hfilter]
  refine ite_map_congr rfl ?_
  refine bind_map_congr fun table => ?_
  exact bind_map_congr fun returning => rfl

theorem Aggregate.sql_blank (a : Aggregate) : a.blank.sql.map Sql.text = a.sql.map Sql.text := by
  let scope := a.query.mapper.bareScope a.query.model
  unfold sql
  refine bind_map_congr (x := a.outputs) fun outputs => ?_
  refine ite_map_congr rfl ?_
  refine bind_map_congr fun table => ?_
  refine map_bind_congr (Condition.conjunction_blank scope a.query.conditions)
    fun filter others hfilter => ?_
  refine bind_map_congr (x := a.query.groupBy.mapM a.column) fun groups => ?_
  refine map_bind_congr (a.query.havingSql_blank scope) fun having others hhaving => ?_
  refine bind_map_congr (x := a.orderTerms) fun order => ?_
  dsimp only
  rw [hfilter, hhaving]
  rfl

theorem Statement.sql_blank (s : Statement) : s.blank.sql.map Sql.text = s.sql.map Sql.text := by
  cases s with
  | select s => exact s.sql_blank
  | count s => exact s.countSql_blank
  | insert i => exact i.sql_blank
  | update u => exact u.sql_blank
  | delete d => exact d.sql_blank
  | aggregate a => exact a.sql_blank

/-- Statements that differ only in their values have the same text, or fail with the same error. -/
theorem Statement.text_eq_of_blank_eq {s t : Statement} (h : s.blank = t.blank) :
    s.sql.map Sql.text = t.sql.map Sql.text := by
  rw [← s.sql_blank, h, t.sql_blank]

/-- Posts that satisfy conditions with two operands are given to another author. -/
def Statement.givePosts (author owner : Value) (pattern : String) : Statement := .update
  { query := { Query.ofModel { registry := .blog, dialect := .postgresql } "Post" with
      conditions := [.any [FieldRef.satisfies ⟨"author", none⟩ (.oneOf [owner, .null]),
        .not (FieldRef.satisfies ⟨"id", none⟩ (.like pattern))]] }
    assignments := [("author", .set author)] }

theorem Statement.text_eq_of_blank_eq_givePosts :
    ((givePosts (.int 1) (.int 2) "7%").sql.map Sql.text).toOption =
        some ("UPDATE \"posts\" SET \"user_id\" = $1 WHERE " ++
          "(\"user_id\" IN ($2, $3)) OR (NOT (\"id\" LIKE $4))") ∧
      (givePosts (.int 1) (.int 2) "7%").sql.map Sql.text =
        (givePosts .null (.text "0) OR (1 = 1") "'; DROP TABLE posts; --").sql.map Sql.text :=
  ⟨by decide +kernel, text_eq_of_blank_eq rfl⟩

end RelMap
