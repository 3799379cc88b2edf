import Mathlib.Data.List.Nodup
import RelMap.Proofs.Schema.Model

/-! Records on their way through columns. Fields and columns are looked up by separate names, which
may overlap; each way leads back to where the other one started. -/
namespace RelMap

namespace Model

variable {m : Model} {name column : String}

/-- A declared field, or a name with no meaning among fields and columns. -/
def NamesField (m : Model) (name : String) : Prop :=
  name ∈ m.fields.map Field.name ∨ name ∉ m.fields.map Field.name ∧ name ∉ m.columnNames

/-- A declared column, or a name with no meaning among columns and fields. -/
def NamesColumn (m : Model) (column : String) : Prop :=
  column ∈ m.columnNames ∨ column ∉ m.columnNames ∧ column ∉ m.fields.map Field.name

instance (m : Model) (name : String) : Decidable (m.NamesField name) :=
  inferInstanceAs (Decidable (_ ∨ _))

instance (m : Model) (column : String) : Decidable (m.NamesColumn column) :=
  inferInstanceAs (Decidable (_ ∨ _))

theorem toColumn_of_not_mem (h : name ∉ m.fields.map Field.name) : m.toColumn name = name := by
  have hnone : m.field? name = none := by
    apply List.find?_eq_none.mpr
    intro f hf hname
    exact h (List.mem_map.mpr ⟨f, hf, of_decide_eq_true hname⟩)
  rw [toColumn, hnone]
  rfl

theorem toField_of_not_mem (h : column ∉ m.columnNames) : m.toField column = column := by
  have hnone : m.fieldByColumn? column = none := by
    apply List.find?_eq_none.mpr
    intro f hf hcolumn
    exact h (List.mem_map.mpr ⟨f, hf, of_decide_eq_true hcolumn⟩)
  rw [toField, hnone]
  rfl

namespace Distinct

variable (hm : m.Distinct)
include hm

theorem toColumn_name {f : Field} (hf : f ∈ m.fields) : m.toColumn f.name = f.columnName := by
  rw [toColumn, hm.field?_name hf]
  rfl

theorem toField_toColumn (h : m.NamesField name) : m.toField (m.toColumn name) = name := by
  rcases h with hdeclared | ⟨hfield, hcolumn⟩
  · obtain ⟨f, hf, rfl⟩ := List.mem_map.mp hdeclared
    rw [hm.toColumn_name hf, hm.toField_columnName hf]
  · rw [toColumn_of_not_mem hfield, toField_of_not_mem hcolumn]

theorem toColumn_toField (h : m.NamesColumn column) : m.toColumn (m.toField column) = column := by
  rcases h with hdeclared | ⟨hcolumn, hfield⟩
  · obtain ⟨f, hf, rfl⟩ := List.mem_map.mp hdeclared
    rw [hm.toField_columnName hf, hm.toColumn_name hf]
  · rw [toField_of_not_mem hcolumn, toColumn_of_not_mem hfield]

/-- Different columns are read into different fields. -/
theorem nodup_map_toField {columns : List String} (hnodup : columns.Nodup)
    (h : ∀ column ∈ columns, m.NamesColumn column) : (columns.map m.toField).Nodup := by
  refine List.Nodup.map_on (fun a ha b hb hab => ?_) hnodup
  rw [← hm.toColumn_toField (h a ha), hab, hm.toColumn_toField (h b hb)]

end Distinct

end Model

namespace Registry

section

variable {g : Registry} {name : String} {m : Model}
variable (hm : g.model name = .ok m) (hdistinct : m.Distinct)
include hm hdistinct

theorem columnsToRecord_recordToColumns {record : Record} (hrecord : record.Distinct)
    (hnames : ∀ field ∈ record.fieldNames, m.NamesField field) :
    ∃ cells, g.recordToColumns name record = .ok cells ∧
      g.columnsToRecord name (cells.map (·.1)) (cells.map (·.2)) =
        .ok { fields := record.fields } := by
  refine ⟨_, recordToColumns_eq hm record, ?_⟩
  have hback : ∀ field ∈ record.fields, (m.toField (m.toColumn field.1), field.2) = field := by
    intro field hfield
    rw [hdistinct.toField_toColumn (hnames field.1 (List.mem_map_of_mem hfield))]
  have hcells : (record.fields.map fun field => (m.toField (m.toColumn field.1), field.2)) =
      record.fields := by
    conv_rhs => rw [← List.map_id record.fields]
    exact List.map_congr_left hback
  rw [columnsToRecord_eq_ofFields hm, ← List.unzip_fst, ← List.unzip_snd, List.zip_unzip,
    List.map_map]
  simp only [Function.comp_def]
  rw [hcells, Record.ofFields, OrderedMap.ofList_of_nodup hrecord]

theorem recordToColumns_columnsToRecord {columns : List String} {values : List Value}
    (hnodup : columns.Nodup) (hcolumns : ∀ column ∈ columns, m.NamesColumn column)
    (hlength : values.length = columns.length) :
    ∃ record, g.columnsToRecord name columns values = .ok record ∧
      g.recordToColumns name record = .ok (columns.zip values) := by
  refine ⟨_, columnsToRecord_eq_ofFields hm columns values, ?_⟩
  have hkeys : (columns.zip values).map (·.1) = columns :=
    List.map_fst_zip (Nat.le_of_eq hlength.symm)
  have hfields : OrderedMap.keys ((columns.zip values).map fun cell => (m.toField cell.1, cell.2)) =
      columns.map m.toField := by
    conv_rhs => rw [← hkeys]
    simp [OrderedMap.keys]
  have hkept : (OrderedMap.keys
      ((columns.zip values).map fun cell => (m.toField cell.1, cell.2))).Nodup := by
    rw [hfields]
    exact hdistinct.nodup_map_toField hnodup hcolumns
  have hback : ∀ cell ∈ columns.zip values, (m.toColumn (m.toField cell.1), cell.2) = cell := by
    intro cell hcell
    have hmem : cell.1 ∈ columns := hkeys ▸ List.mem_map_of_mem hcell
    rw [hdistinct.toColumn_toField (hcolumns cell.1 hmem)]
  rw [recordToColumns_eq hm, Record.ofFields, OrderedMap.ofList_of_nodup hkept, List.map_map]
  apply congrArg Except.ok
  conv_rhs => rw [← List.map_id (columns.zip values)]
  exact List.map_congr_left hback

/-- Records and rows survive the way there and back. Where fields have names of their own and
columns of their own, even if some are named as the columns of others, a record comes back with all
its fields in order, and a row with all its columns. -/
theorem records_and_columns :
    (∀ record : Record, record.Distinct → (∀ field ∈ record.fieldNames, m.NamesField field) →
      ∃ cells, g.recordToColumns name record = .ok cells ∧
        g.columnsToRecord name (cells.map (·.1)) (cells.map (·.2)) =
          .ok { fields := record.fields }) ∧
    ∀ (columns : List String) (values : List Value), columns.Nodup →
      (∀ column ∈ columns, m.NamesColumn column) → values.length = columns.length →
      ∃ record, g.columnsToRecord name columns values = .ok record ∧
        g.recordToColumns name record = .ok (columns.zip values) := by
  constructor
  · intro record hrecord hnames
    exact columnsToRecord_recordToColumns hm hdistinct hrecord hnames
  · intro columns values hnodup hcolumns hlength
    exact recordToColumns_columnsToRecord hm hdistinct hnodup hcolumns hlength

end

/-- Two fields, each kept in a column named as the other one. -/
def swapped : Model where
  name := "Pair"
  table := "pairs"
  fields := [{ name := "id", type := .int, primaryKey := true },
    { name := "a", column := some "b" }, { name := "b", column := some "a" }]

/-- The values of both fields, with one under a name that is not declared between them. -/
def swappedPair : Record := { fields := [("b", .int 2), ("total", .int 3), ("a", .int 1)] }

theorem records_and_columns_swapped :
    (ofModels [swapped]).model "Pair" = .ok swapped ∧ swapped.Distinct ∧
    (ofModels [swapped]).recordToColumns "Pair" swappedPair =
      .ok [("a", .int 2), ("total", .int 3), ("b", .int 1)] ∧
    (ofModels [swapped]).columnsToRecord "Pair" ["a", "total", "b"] [.int 2, .int 3, .int 1] =
      .ok swappedPair ∧
    ∃ record, (ofModels [swapped]).columnsToRecord "Pair" ["b", "a"] [.int 1, .int 2] =
        .ok record ∧
      (ofModels [swapped]).recordToColumns "Pair" record =
        .ok [("b", .int 1), ("a", .int 2)] := by
  have hmodel : (ofModels [swapped]).model "Pair" = .ok swapped := rfl
  have hdistinct : swapped.Distinct := by decide
  obtain ⟨hrecords, hrows⟩ := records_and_columns hmodel hdistinct
  obtain ⟨cells, hcells, hback⟩ := hrecords swappedPair (by decide) (by decide)
  have hwritten : (ofModels [swapped]).recordToColumns "Pair" swappedPair =
      .ok [("a", .int 2), ("total", .int 3), ("b", .int 1)] := rfl
  obtain rfl := Except.ok.inj (hcells.symm.trans hwritten)
  exact ⟨hmodel, hdistinct, hcells, hback,
    hrows ["b", "a"] [.int 1, .int 2] (by decide) (by decide) rfl⟩

end Registry
end RelMap
