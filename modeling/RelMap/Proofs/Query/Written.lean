import RelMap.Proofs.Dialect.Template
import RelMap.Proofs.Query.Closed
import RelMap.Query.Update

/-! What is written, as templates: the cells of inserted rows, and the values of assignments. -/
namespace RelMap

open Placeholder (Closed)
open Template (binding)

/-- The cells of all rows in their places, each row in the order of the fields of the first. -/
def Insert.template (i : Insert) : Template :=
  match i.rows with
  | [] => []
  | first :: _ =>
    if first.fieldNames.isEmpty then []
    else .joinWith ", " (i.rows.map fun row =>
      .parenthesized (.listed (first.fieldNames.map row.get)))

/-- The value that an assignment binds. -/
def Assignment.value : Assignment → Value
  | .set value => value
  | .increment amount => .int amount
  | .decrement amount => .int amount

/-- The assignment of a column with its value in its place. -/
def Assignment.template (column : String) : Assignment → Template
  | .set value => binding (column ++ " = ") value
  | .increment amount => binding (column ++ " = " ++ column ++ " + ") (.int amount)
  | .decrement amount => binding (column ++ " = " ++ column ++ " - ") (.int amount)

def Update.template (u : Update) : Except Error Template :=
  return .joinWith ", " (← u.assignments.mapM fun (field, assignment) => do
    let m := u.query.mapper
    return assignment.template (m.dialect.quote (← m.registry.fieldToColumn u.query.model field)))

theorem Assignment.template_spells {column : String} (hcolumn : Closed column)
    (assignment : Assignment) :
    (assignment.template column).Spells (assignment.sql column) [assignment.value] := by
  have hspells : ∀ {text : String} (value : Value), Closed text →
      (binding text value).Spells ⟨text ++ "?", [value]⟩ [value] := fun value htext =>
    ⟨by rw [Template.sql, Template.text_binding, Template.values_binding],
      Template.sound_binding htext value, Template.values_binding _ value⟩
  cases assignment with
  | set value =>
    have htext : column ++ " = ?" = column ++ " = " ++ "?" := by simp [String.append_assoc]
    rw [sql, htext]
    exact hspells value (hcolumn.append (by decide))
  | increment amount =>
    have htext : column ++ " = " ++ column ++ " + ?" =
        column ++ " = " ++ column ++ " + " ++ "?" := by
      simp [String.append_assoc]
    rw [sql, htext]
    exact hspells (.int amount) (by apply_rules [Closed.append] <;> decide)
  | decrement amount =>
    have htext : column ++ " = " ++ column ++ " - ?" =
        column ++ " = " ++ column ++ " - " ++ "?" := by
      simp [String.append_assoc]
    rw [sql, htext]
    exact hspells (.int amount) (by apply_rules [Closed.append] <;> decide)

theorem Update.template_spells {u : Update} {sets : List Sql} (h : u.assignmentSql = .ok sets) :
    ∃ t, u.template = .ok t ∧
      t.Spells ⟨Text.joinWith ", " (sets.map Sql.text), sets.flatMap Sql.args⟩
        (u.assignments.map fun assignment => assignment.2.value) := by
  have hmem : ∀ assignment ∈ u.assignments, ∀ sql,
      (do return assignment.2.sql (u.query.mapper.dialect.quote
        (← u.query.mapper.registry.fieldToColumn u.query.model assignment.1))) = .ok sql →
      ∃ t, (do return assignment.2.template (u.query.mapper.dialect.quote
          (← u.query.mapper.registry.fieldToColumn u.query.model assignment.1))) = .ok t ∧
        t.Spells sql [assignment.2.value] := by
    intro assignment _ sql hsql
    obtain ⟨column, hcolumn, hsql⟩ := bind_eq_ok.mp hsql
    obtain rfl := pure_eq_ok.mp hsql
    rw [hcolumn]
    exact ⟨_, rfl, assignment.2.template_spells (Dialect.closed_quote _ column)⟩
  obtain ⟨ts, hts, hall⟩ := Template.mapM_spellAll hmem h
  rw [template, hts]
  rw [← List.map_eq_flatMap] at hall
  exact ⟨_, rfl, hall.joinWith (by decide)⟩

namespace Insert

variable {i : Insert} {first : Record} {rest : List Record}

theorem template_eq (hrows : i.rows = first :: rest) (hfields : first.fieldNames ≠ []) :
    i.template = .joinWith ", " (i.rows.map fun row =>
      .parenthesized (.listed (first.fieldNames.map row.get))) := by
  unfold template
  rw [hrows]
  exact if_neg (by simpa using hfields)

theorem template_spells (hrows : i.rows = first :: rest) (hfields : first.fieldNames ≠ []) :
    i.template.Spells ⟨Text.joinWith ", " (List.replicate i.rows.length
      (Sql.parenthesized (Text.joinWith ", " (Placeholder.listed first.fieldNames.length)))),
      i.cells first.fieldNames⟩ (i.cells first.fieldNames) := by
  have htemplate := template_eq hrows hfields
  have htexts : (i.rows.map fun row =>
      (Template.parenthesized (.listed (first.fieldNames.map row.get))).text) =
      List.replicate i.rows.length
        (Sql.parenthesized (Text.joinWith ", " (Placeholder.listed first.fieldNames.length))) := by
    simp only [Template.text_parenthesized, Template.text_listed, List.length_map, List.map_const']
  have hvalues : i.template.values = i.cells first.fieldNames := by
    rw [htemplate, Template.values_joinWith, List.flatMap_map]
    simp only [Template.values_parenthesized, Template.values_listed]
    rfl
  refine ⟨?_, ?_, hvalues⟩
  · rw [Template.sql, hvalues, htemplate, Template.text_joinWith, List.map_map, ← htexts]
    rfl
  · rw [htemplate]
    refine Template.sound_joinWith (by decide) fun part hpart => ?_
    obtain ⟨row, -, rfl⟩ := List.mem_map.mp hpart
    exact (Template.sound_listed _).parenthesized

/-- The rows of an insert with fields are its template, behind the columns. -/
theorem valuesSql_of_fields (hrows : i.rows = first :: rest) (hfields : first.fieldNames ≠ [])
    {columns : List String} (hcolumns : first.fieldNames.length = columns.length) :
    i.valuesSql columns =
      .ok (" (" ++ i.query.mapper.quoteAll columns ++ ") VALUES " ++ i.template.text) := by
  have hne : columns.isEmpty = false := by
    rw [List.isEmpty_eq_false_iff]
    rintro rfl
    exact hfields (List.length_eq_zero_iff.mp hcolumns)
  have htext : i.template.text = _ := congrArg Sql.text (template_spells hrows hfields).sql_eq
  rw [valuesSql, hne, if_neg Bool.false_ne_true, htext, hcolumns]

/-- The rows of an insert as its template, behind a closed text. -/
theorem valuesSql_eq_ok (hrows : i.rows = first :: rest) {columns : List String}
    (hcolumns : first.fieldNames.length = columns.length) {values : String}
    (h : i.valuesSql columns = .ok values) :
    i.template.Sound ∧ i.template.values = i.cells first.fieldNames ∧
      ∃ lead, Closed lead ∧ values = lead ++ i.template.text := by
  by_cases hfields : first.fieldNames = []
  · have hnil : columns = [] := List.length_eq_zero_iff.mp (by simpa [hfields] using hcolumns.symm)
    have htemplate : i.template = [] := by simp [template, hrows, hfields]
    have hcells : i.cells first.fieldNames = [] := by simp [cells, hfields]
    rw [htemplate, hcells]
    refine ⟨.nil, rfl, values, ?_, by simp [Template.text]⟩
    rw [valuesSql, hnil, List.isEmpty_nil, if_pos rfl] at h
    split_ifs at h
    · obtain rfl := Except.ok.inj h
      decide
    · obtain rfl := Except.ok.inj h
      decide
  · have hspells := template_spells hrows hfields
    have hvalues := (valuesSql_of_fields hrows hfields hcolumns).symm.trans h
    have hlead : Closed (" (" ++ i.query.mapper.quoteAll columns ++ ") VALUES ") :=
      ((show Closed " (" by decide).append (i.query.mapper.closed_quoteAll columns)).append
        (by decide)
    exact ⟨hspells.sound, hspells.values_eq, _, hlead, (Except.ok.inj hvalues).symm⟩

end Insert

end RelMap
