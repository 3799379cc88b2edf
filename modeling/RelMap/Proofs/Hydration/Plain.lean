import RelMap.Proofs.Hydration.Fault

/-! The records of rows without joins: each value under the field in its column. -/
namespace RelMap

/-- The values of a row with their columns. -/
def Row.cells (row : Row) : List (String × Value) := row.columns.zip row.values

theorem Row.keys_cells (row : Row) : OrderedMap.keys row.cells = row.columns :=
  List.map_fst_zip (Nat.le_of_eq row.width_eq.symm)

theorem Row.ofValues_eq_ok {columns : List String} {values : List Value} {row : Row}
    (h : ofValues columns values = .ok row) : row.columns = columns ∧ row.values = values := by
  unfold ofValues at h
  split_ifs at h
  obtain rfl := Except.ok.inj h
  exact ⟨rfl, rfl⟩

theorem Row.ofValues_self (row : Row) : ofValues row.columns row.values = .ok row :=
  dif_pos row.width_eq

/-- The record of a row: its values under the fields in its columns. -/
def Model.recordOf (m : Model) (row : Row) : Record :=
  .ofFields (row.cells.map fun cell => (m.toField cell.1, cell.2))

theorem Registry.columnsToRecord_eq {g : Registry} {name : String} {m : Model}
    (hm : g.model name = .ok m) (row : Row) :
    g.columnsToRecord name row.columns row.values = .ok (m.recordOf row) :=
  columnsToRecord_eq_ofFields hm row.columns row.values

theorem forall₂_of_hydratePlain {g : Registry} {name : String} {m : Model}
    (hm : g.model name = .ok m) {rows : RowSet} {records : List Record}
    (h : hydratePlain g name rows = .ok records) :
    List.Forall₂ (fun values r => ∃ row, Row.ofValues rows.columns values = .ok row ∧
      r = m.recordOf row) rows.rows records := by
  refine (forall₂_of_mapM_eq_ok h).imp fun values r hr => ?_
  obtain ⟨row, hrow, hr⟩ := bind_eq_ok.mp hr
  have hrecord := Registry.columnsToRecord_eq hm row
  rw [(Row.ofValues_eq_ok hrow).1] at hrecord
  exact ⟨row, hrow, Except.ok.inj (hr.symm.trans hrecord)⟩

/-- Rows as wide as their columns are all read. -/
theorem exists_hydratePlain_ok {g : Registry} {name : String} {m : Model}
    (hm : g.model name = .ok m) {rows : RowSet}
    (hwidth : ∀ values ∈ rows.rows, values.length = rows.columns.length) :
    ∃ records, hydratePlain g name rows = .ok records :=
  (hydratePlain_failsOnly (P := fun _ => False) hwidth hm).exists_ok fun _ => id

end RelMap
