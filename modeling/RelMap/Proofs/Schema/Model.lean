import RelMap.Proofs.OrderedMap
import RelMap.Proofs.Outcome
import RelMap.Schema.Registry

/-! Fields of declared models and the columns that they are kept in. -/
namespace RelMap

/-- The look-up of an element by a key that is unlike all others. -/
theorem find?_of_nodup_map {α κ : Type} [DecidableEq κ] {key : α → κ} {l : List α}
    (h : (l.map key).Nodup) {a : α} (ha : a ∈ l) :
    l.find? (fun b => key b = key a) = some a := by
  induction l with
  | nil => simp at ha
  | cons first rest ih =>
    obtain ⟨hfirst, hrest⟩ := List.nodup_cons.mp h
    rcases List.mem_cons.mp ha with rfl | ha
    · simp
    · have hne : key first ≠ key a := fun he => hfirst (he ▸ List.mem_map_of_mem ha)
      rw [List.find?_cons_of_neg (by simpa using hne)]
      exact ih hrest ha

/-- A record whose fields have names of their own. -/
def Record.Distinct (r : Record) : Prop := r.fieldNames.Nodup

instance (r : Record) : Decidable r.Distinct := inferInstanceAs (Decidable (List.Nodup _))

namespace Model

variable {m : Model}

theorem columnName_eq_ok {name column : String} :
    m.columnName name = .ok column ↔ ∃ f, m.field? name = some f ∧ f.columnName = column := by
  unfold columnName
  cases m.field? name <;> simp

theorem mem_fields_of_field? {name : String} {f : Field} (h : m.field? name = some f) :
    f ∈ m.fields ∧ f.name = name :=
  ⟨List.mem_of_find?_eq_some h, by simpa using List.find?_some h⟩

theorem mem_fields_of_mem_primaryKeyFields {f : Field} (h : f ∈ m.primaryKeyFields) :
    f ∈ m.fields := by
  unfold primaryKeyFields at h
  split_ifs at h
  · exact List.mem_of_mem_filter h
  · obtain ⟨name, -, hf⟩ := List.mem_filterMap.mp h
    exact (mem_fields_of_field? hf).1

/-- A model whose fields have names of their own and columns of their own. -/
structure Distinct (m : Model) : Prop where
  names : (m.fields.map Field.name).Nodup
  columns : m.columnNames.Nodup

instance (m : Model) : Decidable m.Distinct :=
  decidable_of_iff ((m.fields.map Field.name).Nodup ∧ m.columnNames.Nodup)
    ⟨fun h => ⟨h.1, h.2⟩, fun h => ⟨h.names, h.columns⟩⟩

namespace Distinct

variable (hm : m.Distinct) {f g : Field} (hf : f ∈ m.fields)
include hm hf

theorem field?_name : m.field? f.name = some f := find?_of_nodup_map hm.names hf

theorem fieldByColumn?_columnName : m.fieldByColumn? f.columnName = some f :=
  find?_of_nodup_map hm.columns hf

theorem toField_columnName : m.toField f.columnName = f.name := by
  rw [toField, hm.fieldByColumn?_columnName hf]
  rfl

theorem columnName_inj (hg : g ∈ m.fields) :
    f.name = g.name ↔ f.columnName = g.columnName := by
  constructor
  · intro h
    have hsame := hm.field?_name hg
    rw [← h, hm.field?_name hf] at hsame
    rw [Option.some.inj hsame]
  · intro h
    rw [← hm.toField_columnName hf, h, hm.toField_columnName hg]

end Distinct

end Model

theorem Registry.model_of_contains {g : Registry} {name : String} (h : g.contains name = true) :
    ∃ m, g.model name = .ok m := by
  obtain ⟨m, hm⟩ := Option.isSome_iff_exists.mp h
  exact ⟨m, by rw [model, hm]⟩

theorem Registry.model_of_not_contains {g : Registry} {name : String}
    (h : g.contains name = false) : g.model name = .error (.unknownModel name) := by
  have hnone : OrderedMap.find? name g.models = none := by simpa [contains, OrderedMap.contains] using h
  rw [model, hnone]

theorem Registry.contains_of_model {g : Registry} {name : String} {m : Model}
    (h : g.model name = .ok m) : g.contains name = true := by
  by_contra hnot
  rw [model_of_not_contains (by simpa using hnot)] at h
  cases h

theorem Registry.modelToTable_eq {g : Registry} {name : String} {m : Model}
    (hm : g.model name = .ok m) : g.modelToTable name = .ok m.table := by
  rw [modelToTable, hm]
  rfl

theorem Registry.fieldToColumn_eq {g : Registry} {name : String} {m : Model}
    (hm : g.model name = .ok m) (field : String) :
    g.fieldToColumn name field = .ok (m.toColumn field) := by
  rw [fieldToColumn, hm]
  rfl

theorem Registry.fieldsToColumns_eq {g : Registry} {name : String} {m : Model}
    (hm : g.model name = .ok m) (fields : List String) :
    g.fieldsToColumns name fields = .ok (fields.map m.toColumn) := by
  rw [fieldsToColumns, funext (fieldToColumn_eq hm), mapM_ok]

theorem Registry.columnToField_eq {g : Registry} {name : String} {m : Model}
    (hm : g.model name = .ok m) (column : String) :
    g.columnToField name column = .ok (m.toField column) := by
  rw [columnToField, hm]
  rfl

theorem Registry.recordToColumns_eq {g : Registry} {name : String} {m : Model}
    (hm : g.model name = .ok m) (record : Record) : g.recordToColumns name record =
      .ok (record.fields.map fun field => (m.toColumn field.1, field.2)) := by
  simp only [recordToColumns, fieldToColumn_eq hm]
  exact mapM_ok (fun field => (m.toColumn field.1, field.2)) record.fields

theorem Registry.columnsToRecord_eq_ofFields {g : Registry} {name : String} {m : Model}
    (hm : g.model name = .ok m) (columns : List String) (values : List Value) :
    g.columnsToRecord name columns values =
      .ok (.ofFields ((columns.zip values).map fun cell => (m.toField cell.1, cell.2))) := by
  simp only [columnsToRecord, columnToField_eq hm]
  exact congrArg (· >>= _)
    (mapM_ok (fun cell => (m.toField cell.1, cell.2)) (columns.zip values))

/-- Models whose names and tables have no dots, with fields and columns that are told apart by
their names. -/
structure Registry.Separable (g : Registry) : Prop where
  name_dot : ∀ name m, g.model name = .ok m → '.' ∉ name.toList
  table_dot : ∀ name m, g.model name = .ok m → '.' ∉ m.table.toList
  distinct : ∀ name m, g.model name = .ok m → m.Distinct

theorem Registry.separable_of_models {g : Registry} (h : ∀ entry ∈ g.models,
    '.' ∉ entry.1.toList ∧ '.' ∉ entry.2.table.toList ∧ entry.2.Distinct) : g.Separable := by
  have hmem : ∀ name m, g.model name = .ok m → (name, m) ∈ g.models := by
    intro name m hm
    unfold Registry.model at hm
    split at hm
    · next m' hfind =>
      obtain rfl := Except.ok.inj hm
      exact OrderedMap.mem_of_find? hfind
    · simp at hm
  exact ⟨fun name m hm => (h _ (hmem name m hm)).1, fun name m hm => (h _ (hmem name m hm)).2.1,
    fun name m hm => (h _ (hmem name m hm)).2.2⟩

end RelMap
