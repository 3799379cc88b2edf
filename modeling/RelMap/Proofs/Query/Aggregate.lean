import Mathlib.Data.List.Nodup
import RelMap.Exchange.Script
import RelMap.Proofs.Hydration.Plain
import RelMap.Proofs.Query.Write
import RelMap.Query.Aggregate

/-! The records of an aggregate. The statement names what it returns by the columns of fields and by
labels, and the rows are read back as those of any select: by the fields of the model that have
these columns. -/
namespace RelMap

namespace Aggregate

/-- The columns of a result: those of the fields, then the labels of the calls. -/
def columns (a : Aggregate) (m : Model) : List String :=
  a.fields.map m.toColumn ++ a.aggregations.map Aggregation.label

/-- A record with the value of each field and that of each call under their own names, and with
nothing else. -/
structure Keyed (a : Aggregate) (m : Model) (row : Row) (r : Record) : Prop where
  field : ∀ f ∈ a.fields, ∃ value, row.get? (m.toColumn f) = some value ∧ r.get? f = some value
  label : ∀ g ∈ a.aggregations, ∃ value, row.get? g.label = some value ∧
    r.get? g.label = some value
  only : ∀ name ∈ r.fieldNames, name ∈ a.fields ∨ ∃ g ∈ a.aggregations, g.label = name

/-- One record for each row of an answer. -/
def KeyedRows (a : Aggregate) (m : Model) (rows : RowSet) (records : List Record) : Prop :=
  List.Forall₂ (fun values r => ∃ row, Row.ofValues rows.columns values = .ok row ∧ a.Keyed m row r)
    rows.rows records

/-- Names that are read back as they are: a field is the first one in its column, a label is not
the column of a field of another name, and no field is named like a label. -/
structure ReadsBack (a : Aggregate) (m : Model) : Prop where
  field : ∀ f ∈ a.fields, m.toField (m.toColumn f) = f
  label : ∀ g ∈ a.aggregations, m.toField g.label = g.label
  apart : ∀ f ∈ a.fields, ∀ g ∈ a.aggregations, f ≠ g.label

/-- An output of a statement is named by a column. -/
def Names (d : Dialect) (output column : String) : Prop :=
  output = d.quote column ∨ ∃ call, output = call ++ " AS " ++ d.quote column

variable {a : Aggregate} {m : Model} {sql : Sql}

theorem outputs_named (hm : a.query.mapper.registry.model a.query.model = .ok m)
    {outputs : List String} (h : a.outputs = .ok outputs) :
    List.Forall₂ (Names a.query.mapper.dialect) outputs (a.columns m) := by
  obtain ⟨fields, hfields, h⟩ := bind_eq_ok.mp h
  obtain ⟨calls, hcalls, h⟩ := bind_eq_ok.mp h
  obtain rfl := pure_eq_ok.mp h
  refine List.rel_append ?_ ?_
  · refine List.forall₂_map_right_iff.mpr ?_
    refine (forall₂_of_mapM_eq_ok hfields).flip.imp fun output f hf => .inl ?_
    change a.column f = .ok output at hf
    rw [column, Registry.fieldToColumn_eq hm] at hf
    exact (Except.ok.inj hf).symm
  · refine List.forall₂_map_right_iff.mpr ?_
    refine (forall₂_of_mapM_eq_ok hcalls).flip.imp fun output g hg => .inr ?_
    obtain ⟨call, -, hg⟩ := bind_eq_ok.mp hg
    exact ⟨call, (pure_eq_ok.mp hg).symm⟩

/-- What a statement returns is named by the columns of its result, in their order. -/
theorem text_of_sql (hsql : a.sql = .ok sql)
    (hm : a.query.mapper.registry.model a.query.model = .ok m) :
    ∃ outputs behind, List.Forall₂ (Names a.query.mapper.dialect) outputs (a.columns m) ∧
      sql.text = a.query.mapper.dialect.finalize
        ("SELECT " ++ Text.joinWith ", " outputs ++ " FROM " ++ behind) := by
  obtain ⟨outputs, houtputs, h⟩ := bind_eq_ok.mp hsql
  dsimp only at h
  split_ifs at h
  · rw [throw_bind] at h
    cases h
  obtain ⟨table, -, h⟩ := bind_eq_ok.mp h
  obtain ⟨filter, -, h⟩ := bind_eq_ok.mp h
  obtain ⟨groups, -, h⟩ := bind_eq_ok.mp h
  obtain ⟨having, -, h⟩ := bind_eq_ok.mp h
  obtain ⟨order, -, h⟩ := bind_eq_ok.mp h
  obtain rfl := pure_eq_ok.mp h
  refine ⟨outputs, a.query.mapper.dialect.quote table ++ (Sql.clause "WHERE" filter.text
    ++ (Sql.clause "GROUP BY" (Text.joinWith ", " groups) ++ (having.text
    ++ (Sql.clause "ORDER BY" (Text.joinWith ", " order)
    ++ Sql.clause "" (a.query.mapper.dialect.paging a.query.limit a.query.offset))))),
    outputs_named hm houtputs, ?_⟩
  simp only [String.append_assoc]

/-- The names under which the columns of a result are read back. -/
theorem ReadsBack.map_toField (h : a.ReadsBack m) :
    (a.columns m).map m.toField = a.fields ++ a.aggregations.map Aggregation.label := by
  have hfields : a.fields.map (m.toField ∘ m.toColumn) = a.fields.map id :=
    List.map_congr_left h.field
  have hlabels : a.aggregations.map (m.toField ∘ Aggregation.label) =
      a.aggregations.map Aggregation.label := List.map_congr_left h.label
  rw [columns, List.map_append, List.map_map, List.map_map, hfields, hlabels, List.map_id]

theorem ReadsBack.nodup (h : a.ReadsBack m) (hnodup : (a.columns m).Nodup) :
    ((a.columns m).map m.toField).Nodup := by
  rw [h.map_toField]
  obtain ⟨hfields, hlabels, -⟩ := List.nodup_append.mp hnodup
  refine List.nodup_append.mpr ⟨hfields.of_map _, hlabels, fun f hf label hlabel => ?_⟩
  obtain ⟨g, hg, rfl⟩ := List.mem_map.mp hlabel
  exact h.apart f hf g hg

theorem keyed_recordOf (h : a.ReadsBack m) (hnodup : (a.columns m).Nodup) {row : Row}
    (hrow : row.columns = a.columns m) : a.Keyed m row (m.recordOf row) := by
  have hkeys : OrderedMap.keys row.cells = a.columns m := row.keys_cells.trans hrow
  have hnames : OrderedMap.keys (row.cells.map fun cell => (m.toField cell.1, cell.2)) =
      (a.columns m).map m.toField := by
    rw [← hkeys, OrderedMap.keys, OrderedMap.keys, List.map_map, List.map_map]
    rfl
  have hfields : (m.recordOf row).fields = row.cells.map fun cell => (m.toField cell.1, cell.2) :=
    OrderedMap.ofList_of_nodup (hnames ▸ h.nodup hnodup)
  have hget : ∀ column ∈ a.columns m, ∃ value, row.get? column = some value ∧
      (m.recordOf row).get? (m.toField column) = some value := by
    intro column hcolumn
    obtain ⟨value, hvalue⟩ := Option.isSome_iff_exists.mp
      (OrderedMap.find?_isSome_iff.mpr (hkeys ▸ hcolumn))
    refine ⟨value, hvalue, ?_⟩
    rw [Record.get?, hfields, OrderedMap.find?_map_key, hvalue]
    rw [hkeys]
    exact fun other hother => List.inj_on_of_nodup_map (h.nodup hnodup) hother hcolumn
  refine ⟨fun f hf => ?_, fun g hg => ?_, fun name hname => ?_⟩
  · obtain ⟨value, hvalue⟩ := hget (m.toColumn f)
      (List.mem_append_left _ (List.mem_map_of_mem hf))
    rw [h.field f hf] at hvalue
    exact ⟨value, hvalue⟩
  · obtain ⟨value, hvalue⟩ := hget g.label (List.mem_append_right _ (List.mem_map_of_mem hg))
    rw [h.label g hg] at hvalue
    exact ⟨value, hvalue⟩
  · rw [Record.fieldNames, hfields, hnames, h.map_toField] at hname
    exact (List.mem_append.mp hname).imp_right List.mem_map.mp

/-- The row with a one in a column and with no other value. -/
def mark (columns : List String) (column : String) : Row where
  columns
  values := columns.map fun c => if c = column then .int 1 else .null
  width_eq := List.length_map _

theorem cells_mark (columns : List String) (column : String) : (mark columns column).cells =
    columns.map fun c => (c, if c = column then .int 1 else .null) := by
  have h := List.zip_map' (f := id) (g := fun c => if c = column then Value.int 1 else .null)
    (l := columns)
  rwa [List.map_id] at h

theorem get?_mark {columns : List String} {column c : String} (hc : c ∈ columns) :
    (mark columns column).get? c = some (if c = column then .int 1 else .null) := by
  have hfind := OrderedMap.find?_map_pair
    (fun c => if c = column then Value.int 1 else .null) c columns
  rwa [← cells_mark, if_pos hc] at hfind

/-- The one of a marked row is only read back under the name of the marked column. -/
theorem toField_of_get?_mark {columns : List String} {column name : String}
    (h : (m.recordOf (mark columns column)).get? name = some (.int 1)) :
    m.toField column = name := by
  rw [Record.get?, Model.recordOf, Record.ofFields, OrderedMap.find?_ofList] at h
  have hmem := List.mem_reverse.mp (OrderedMap.mem_of_find? h)
  rw [cells_mark, List.map_map] at hmem
  obtain ⟨c, -, hc⟩ := List.mem_map.mp hmem
  obtain ⟨hname, hvalue⟩ := Prod.mk.inj hc
  by_cases hmarked : c = column
  · exact hmarked ▸ hname
  · simp [hmarked] at hvalue

theorem readsBack_of_keyed (hnodup : (a.columns m).Nodup)
    (h : ∀ row : Row, row.columns = a.columns m → a.Keyed m row (m.recordOf row)) :
    a.ReadsBack m := by
  have hmark : ∀ column, a.Keyed m (mark (a.columns m) column)
      (m.recordOf (mark (a.columns m) column)) := fun column => h _ rfl
  have hfield : ∀ f ∈ a.fields, m.toColumn f ∈ a.columns m := fun f hf =>
    List.mem_append_left _ (List.mem_map_of_mem hf)
  have hlabel : ∀ g ∈ a.aggregations, g.label ∈ a.columns m := fun g hg =>
    List.mem_append_right _ (List.mem_map_of_mem hg)
  have hread : ∀ f ∈ a.fields,
      (m.recordOf (mark (a.columns m) (m.toColumn f))).get? f = some (.int 1) := by
    intro f hf
    obtain ⟨value, hvalue, hget⟩ := (hmark (m.toColumn f)).field f hf
    rw [get?_mark (hfield f hf), if_pos rfl] at hvalue
    rw [hget, hvalue]
  refine ⟨fun f hf => toField_of_get?_mark (hread f hf), fun g hg => ?_, fun f hf g hg he => ?_⟩
  · obtain ⟨value, hvalue, hget⟩ := (hmark g.label).label g hg
    rw [get?_mark (hlabel g hg), if_pos rfl] at hvalue
    exact toField_of_get?_mark (hget.trans hvalue.symm)
  · obtain ⟨value, hvalue, hget⟩ := (hmark (m.toColumn f)).label g hg
    have hne : g.label ≠ m.toColumn f := fun hsame =>
      (List.nodup_append.mp hnodup).2.2 _ (List.mem_map_of_mem hf) _ (List.mem_map_of_mem hg)
        hsame.symm
    rw [get?_mark (hlabel g hg), if_neg hne] at hvalue
    rw [← he, hread f hf] at hget
    cases hvalue.trans hget.symm

/-- An aggregate asks for the rows of its statement, and reads them as those of a select on its
model. -/
theorem exec_eq (h : a.sql = .ok sql) : a.exec = .query sql fun answer =>
    .done ((answer >>= hydratePlain a.query.mapper.registry a.query.model).mapError
      (.during ("aggregate " ++ a.query.model))) := by
  have hrows : a.rows = .query sql .done := by
    rw [Aggregate.rows, h]
    rfl
  rw [exec, hrows]
  refine congrArg (Exchange.query sql) (funext fun answer => ?_)
  cases answer with
  | error e => rfl
  | ok rows =>
    rw [ok_bind]
    change (Exchange.done (hydratePlain a.query.mapper.registry a.query.model rows)).during _ = _
    cases hydratePlain a.query.mapper.registry a.query.model rows with
    | error e => rfl
    | ok records => rfl

/-- The statement returns columns under names of their own. The records of an aggregate have the
value of each field under its name and that of each call under its label, and nothing else, whatever
rows the database answers with, exactly if all these names are read back as they are. -/
theorem exec_keyed (hsql : a.sql = .ok sql)
    (hm : a.query.mapper.registry.model a.query.model = .ok m) (hnodup : (a.columns m).Nodup) :
    (∃ outputs behind, List.Forall₂ (Names a.query.mapper.dialect) outputs (a.columns m) ∧
      sql.text = a.query.mapper.dialect.finalize
        ("SELECT " ++ Text.joinWith ", " outputs ++ " FROM " ++ behind)) ∧
    (a.ReadsBack m ↔ ∀ (rows : RowSet) (s : Script), rows.columns = a.columns m →
      s.rows.head? = some (.ok rows) →
      ((∀ values ∈ rows.rows, values.length = rows.columns.length) →
        ∃ records, (a.exec.run s).1 = .ok records) ∧
      ∀ records, (a.exec.run s).1 = .ok records → a.KeyedRows m rows records) := by
  have hrun : ∀ (rows : RowSet) (s : Script), s.rows.head? = some (.ok rows) → ∀ records,
      (a.exec.run s).1 = .ok records ↔
        hydratePlain a.query.mapper.registry a.query.model rows = .ok records := by
    intro rows s hs records
    rw [exec_eq hsql]
    simp only [Exchange.run, Script.answerRows, hs, Option.getD_some, ok_bind]
    cases hydratePlain a.query.mapper.registry a.query.model rows <;> simp [Except.mapError]
  refine ⟨text_of_sql hsql hm, ?_⟩
  constructor
  · intro h rows s hcolumns hs
    refine ⟨fun hwidth => ?_, fun records hrecords => ?_⟩
    · obtain ⟨records, hrecords⟩ := exists_hydratePlain_ok hm hwidth
      exact ⟨records, (hrun rows s hs records).mpr hrecords⟩
    · refine (forall₂_of_hydratePlain hm ((hrun rows s hs records).mp hrecords)).imp ?_
      rintro values r ⟨row, hrow, rfl⟩
      exact ⟨row, hrow, keyed_recordOf h hnodup ((Row.ofValues_eq_ok hrow).1.trans hcolumns)⟩
  · intro h
    refine readsBack_of_keyed hnodup fun row hrow => ?_
    have hone : hydratePlain a.query.mapper.registry a.query.model ⟨row.columns, [row.values]⟩ =
        .ok [m.recordOf row] := by
      rw [hydratePlain, RowSet.mapRows, List.mapM_cons, row.ofValues_self, ok_bind,
        Registry.columnsToRecord_eq hm]
      rfl
    obtain ⟨-, hkeyed⟩ := h ⟨row.columns, [row.values]⟩ { rows := [.ok _] } hrow rfl
    obtain ⟨⟨read, hread, hkeyed⟩, -⟩ :=
      List.forall₂_cons.mp (hkeyed _ ((hrun _ _ rfl _).mpr hone))
    obtain rfl := Except.ok.inj (row.ofValues_self.symm.trans hread)
    exact hkeyed

/-- In a model whose fields have names and columns of their own, names are read back as they are
unless a label is the column of a field of another name, or names a field that is returned too. -/
theorem readsBack_of_distinct (hdistinct : m.Distinct)
    (hfields : ∀ f ∈ a.fields, (m.field? f).isSome)
    (hlabels : ∀ g ∈ a.aggregations, ∀ f ∈ m.fields, f.columnName = g.label → f.name = g.label)
    (hapart : ∀ f ∈ a.fields, ∀ g ∈ a.aggregations, f ≠ g.label) : a.ReadsBack m := by
  refine ⟨fun name hname => ?_, fun g hg => ?_, hapart⟩
  · obtain ⟨f, hf⟩ := Option.isSome_iff_exists.mp (hfields name hname)
    obtain ⟨hmem, rfl⟩ := Model.mem_fields_of_field? hf
    rw [Model.toColumn, hf]
    exact hdistinct.toField_columnName hmem
  · rw [Model.toField]
    cases hfind : m.fieldByColumn? g.label with
    | none => rfl
    | some f =>
      exact hlabels g hg f (List.mem_of_find?_eq_some hfind) (by simpa using List.find?_some hfind)

/-- The posts of each user, counted under a label. -/
def postsPerAuthor (fields : List String) (label : String) : Aggregate :=
  ((({ query := Query.ofModel { registry := .blog, dialect := .sqlite } "Post" } : Aggregate).select
    fields).add .count none label).groupBy ["author"]

/-- Two users with posts. -/
def authorCounts : RowSet where
  columns := ["user_id", "total"]
  rows := [[.int 1, .int 3], [.int 2, .int 1]]

theorem exec_keyed_postsPerAuthor :
    let a := postsPerAuthor ["author"] "total"
    ∃ sql m, a.sql = .ok sql ∧ Registry.blog.model "Post" = .ok m ∧ (a.columns m).Nodup ∧
      ∃ records, (a.exec.run { rows := [.ok authorCounts] }).1 = .ok records ∧
        a.KeyedRows m authorCounts records := by
  intro a
  have hm : Registry.blog.model "Post" = .ok _ := rfl
  refine ⟨_, _, rfl, hm, by decide, ?_⟩
  obtain ⟨hok, hkeyed⟩ := (exec_keyed (a := a) rfl hm (by decide)).2.mp
    (readsBack_of_distinct (by decide) (by decide) (by decide) (by decide)) authorCounts
    { rows := [.ok authorCounts] } rfl rfl
  obtain ⟨records, hrecords⟩ := hok (by decide)
  exact ⟨records, hrecords, hkeyed records hrecords⟩

/-- A label that is the column of a field is lost: the count is read back as that field. -/
theorem exec_keyed_mislabelled :
    let a := postsPerAuthor [] "user_id"
    let row : Row := ⟨["user_id"], [.int 3], rfl⟩
    ∃ sql m r, a.sql = .ok sql ∧ Registry.blog.model "Post" = .ok m ∧ (a.columns m).Nodup ∧
      row.columns = a.columns m ∧
      (a.exec.run { rows := [.ok ⟨row.columns, [row.values]⟩] }).1 = .ok [r] ∧
      r.fields = [("author", .int 3)] ∧ ¬a.Keyed m row r := by
  intro a row
  have hm : Registry.blog.model "Post" = .ok _ := rfl
  refine ⟨_, _, .ofFields [("author", .int 3)], rfl, hm, by decide, rfl, rfl, rfl, fun h => ?_⟩
  obtain ⟨value, -, hvalue⟩ := h.label ⟨⟨.count, none⟩, "user_id"⟩ (by decide)
  simp [Record.get?, Record.ofFields, OrderedMap.ofList, OrderedMap.insertAll, OrderedMap.insert,
    OrderedMap.find?] at hvalue

end Aggregate
end RelMap
