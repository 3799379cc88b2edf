import Mathlib.Data.List.Perm.Subperm
import RelMap.Proofs.Dialect.Finished
import RelMap.Proofs.Join.Run
import RelMap.Proofs.Query.Conflict
import RelMap.Proofs.Query.Written

/-! Inserts of several rows. The first row names the columns; every other row has the same fields
in an order of its own, and each of its values is bound to the column of its field. -/
namespace RelMap

open Placeholder (Closed)

/-- Lists of one length, one after the other, are found in steps of this length. -/
theorem getElem?_flatMap_of_length {α β : Type} {f : α → List β} {l : List α} {width : Nat}
    (hwidth : ∀ a ∈ l, (f a).length = width) {r c : Nat} (hc : c < width) :
    (l.flatMap f)[r * width + c]? = l[r]?.bind fun a => (f a)[c]? := by
  induction l generalizing r with
  | nil => simp
  | cons a l ih =>
    obtain ⟨ha, hl⟩ := List.forall_mem_cons.mp hwidth
    rw [List.flatMap_cons]
    cases r with
    | zero =>
      rw [Nat.zero_mul, Nat.zero_add, List.getElem?_append_left (by omega)]
      rfl
    | succ r =>
      have hstep : (r + 1) * width + c = (f a).length + (r * width + c) := by
        rw [ha, Nat.succ_mul]
        omega
      rw [hstep, List.getElem?_append_right (by omega), Nat.add_sub_cancel_left, ih hl]
      rfl

namespace Insert

/-- A row with exactly these fields, in any order. -/
def SameFields (fields : List String) (row : Record) : Prop :=
  ∀ name, name ∈ row.fieldNames ↔ name ∈ fields

theorem hasFields_iff {fields : List String} {row : Record} (hfields : fields.Nodup)
    (hrow : row.Distinct) : hasFields fields row = true ↔ SameFields fields row := by
  have hcontains : ∀ name, row.contains name = true ↔ name ∈ row.fieldNames := fun name =>
    OrderedMap.find?_isSome_iff
  have hsize : row.size = row.fieldNames.length := (List.length_map _).symm
  simp only [hasFields, Bool.and_eq_true, beq_iff_eq, List.all_eq_true, hcontains, hsize]
  constructor
  · rintro ⟨hlength, hsubset⟩
    -- As many names on both sides, so the one-sided inclusion leaves no other name.
    have hperm : fields.Perm row.fieldNames :=
      (List.subperm_of_subset hfields hsubset).perm_of_length_le hlength.le
    exact fun name => hperm.mem_iff.symm
  · intro h
    have hperm : row.fieldNames.Perm fields := (List.perm_ext_iff_of_nodup hrow hfields).mpr h
    exact ⟨hperm.length_eq, fun name hname => (h name).mpr hname⟩

theorem oddRow?_eq_none_iff {fields : List String} {rows : List Record} (hfields : fields.Nodup)
    (hrows : ∀ row ∈ rows, row.Distinct) :
    oddRow? fields rows = none ↔ ∀ row ∈ rows, SameFields fields row := by
  simp only [oddRow?, List.findIdx?_eq_none_iff, Bool.not_eq_false']
  exact forall₂_congr fun row hrow => hasFields_iff hfields (hrows row hrow)

/-- The groups of placeholders of `rows` rows with `width` cells each, numbered row by row. -/
def groups (d : Dialect) (rows width : Nat) : String :=
  Text.joinWith ", " ((List.range rows).map fun r => Sql.parenthesized
    (Text.joinWith ", " ((List.range width).map fun c => d.placeholder (r * width + c + 1))))

section

variable {i : Insert} {m : Model} {first : Record} {rest : List Record}

theorem finished_template (d : Dialect) (hrows : i.rows = first :: rest)
    (hfields : first.fieldNames ≠ []) :
    i.template.finished d 0 = groups d i.rows.length first.fieldNames.length := by
  have hwidth : ∀ part ∈ i.rows.map fun row =>
      Template.parenthesized (.listed (first.fieldNames.map row.get)),
      part.values.length = first.fieldNames.length := by
    intro part hpart
    obtain ⟨row, -, rfl⟩ := List.mem_map.mp hpart
    rw [Template.values_parenthesized, Template.values_listed, List.length_map]
  rw [template_eq hrows hfields, Template.finished_joinWith ", " hwidth, groups]
  congr 1
  refine List.ext_getElem (by simp) fun k hk hk' => ?_
  simp [Template.finished_listed]

variable (hm : i.query.mapper.registry.model i.query.model = .ok m)
  (hrows : i.rows = first :: rest)
include hm hrows

theorem sql_of_oddRow {index : Nat} (h : oddRow? first.fieldNames i.rows = some index) :
    i.sql = .error (.invalidQuery (.rowFields index i.query.model)) := by
  rw [hrows] at h
  simp only [sql, hm, hrows, ok_bind, List.head?_cons, h]
  rfl

/-- What is left to build once all rows have the fields of the first one. -/
theorem sql_of_alike (h : oddRow? first.fieldNames i.rows = none) :
    i.sql = (do
      let columns := first.fieldNames.map m.toColumn
      let values ← i.valuesSql columns
      let conflict ← i.conflictClause columns
      let returning ← i.query.mapper.returning i.query.model i.returning
      return ⟨i.query.mapper.dialect.finalize (i.verb ++ " "
        ++ i.query.mapper.dialect.quote m.table ++ values ++ conflict ++ returning),
        i.cells first.fieldNames⟩) := by
  rw [hrows] at h
  simp only [sql, hm, hrows, ok_bind, List.head?_cons, h, Registry.fieldsToColumns_eq hm]

end

/-- The placeholders of all cells stand in one group for each row, in the order of the columns, and
the argument of each is the value of its row under the field of its column. -/
structure CellByCell (i : Insert) (m : Model) (first : Record) (sql : Sql) : Prop where
  text_eq : ∃ rest, Closed rest ∧ sql.text = i.verb ++ " "
    ++ i.query.mapper.dialect.quote m.table ++ " ("
    ++ i.query.mapper.quoteAll (first.fieldNames.map m.toColumn) ++ ") VALUES "
    ++ groups i.query.mapper.dialect i.rows.length first.fieldNames.length ++ rest
  length_eq : sql.args.length = i.rows.length * first.fieldNames.length
  bound : ∀ (r c : Nat) (row : Record) (field : String), i.rows[r]? = some row →
    first.fieldNames[c]? = some field → ∃ value, row.get? field = some value ∧
      sql.args[r * first.fieldNames.length + c]? = some value

section

variable {i : Insert} {m : Model} {first : Record} {rest : List Record}

theorem getElem?_cells {fields : List String} {r c : Nat} {row : Record} {field : String}
    (hrow : i.rows[r]? = some row) (hfield : fields[c]? = some field) :
    (i.cells fields)[r * fields.length + c]? = some (row.get field) := by
  obtain ⟨hc, -⟩ := List.getElem?_eq_some_iff.mp hfield
  rw [cells, getElem?_flatMap_of_length (fun row _ => List.length_map _) hc, hrow,
    Option.bind_some, List.getElem?_map, hfield]
  rfl

theorem length_cells (fields : List String) :
    (i.cells fields).length = i.rows.length * fields.length := by
  simp [cells, List.length_flatMap]

variable (hm : i.query.mapper.registry.model i.query.model = .ok m)
  (hrows : i.rows = first :: rest) (hfields : first.fieldNames ≠ [])
include hm hrows hfields

theorem cellByCell (hodd : oddRow? first.fieldNames i.rows = none)
    (hsame : ∀ row ∈ i.rows, SameFields first.fieldNames row) {sql : Sql} (h : i.sql = .ok sql) :
    i.CellByCell m first sql := by
  rw [sql_of_alike hm hrows hodd] at h
  obtain ⟨values, hvalues, h⟩ := bind_eq_ok.mp h
  obtain ⟨conflict, hconflict, h⟩ := bind_eq_ok.mp h
  obtain ⟨returning, hreturning, h⟩ := bind_eq_ok.mp h
  obtain rfl := pure_eq_ok.mp h
  rw [valuesSql_of_fields hrows hfields (List.length_map _).symm] at hvalues
  obtain rfl := Except.ok.inj hvalues
  have hspells := template_spells hrows hfields
  have hhead : Closed (i.verb ++ " " ++ i.query.mapper.dialect.quote m.table ++ " ("
      ++ i.query.mapper.quoteAll (first.fieldNames.map m.toColumn) ++ ") VALUES ") := by
    apply_rules [Closed.append, Dialect.closed_quote, Mapper.closed_quoteAll, closed_verb] <;>
      decide
  have hrest : Closed (conflict ++ returning) :=
    (closed_conflictClause hconflict).append (Mapper.closed_returning hreturning)
  refine ⟨⟨conflict ++ returning, hrest, ?_⟩, length_cells first.fieldNames, ?_⟩
  · rw [← finished_template _ hrows hfields, ← Dialect.finalize_between hhead hspells.sound hrest]
    simp only [String.append_assoc]
  · intro r c row field hrow hfield
    have hmem : field ∈ row.fieldNames :=
      (hsame row (List.mem_of_getElem? hrow) field).mpr (List.mem_of_getElem? hfield)
    obtain ⟨value, hvalue⟩ := Option.isSome_iff_exists.mp (OrderedMap.find?_isSome_iff.mpr hmem)
    refine ⟨value, hvalue, ?_⟩
    rw [getElem?_cells hrow hfield, Record.get, show row.get? field = some value from hvalue]
    rfl

theorem sql_failsOnly_of_alike (hodd : oddRow? first.fieldNames i.rows = none) :
    FailsOnly (fun e => e = .invalidQuery (.emptyUpsert i.query.model) ∨
      e = .returningUnsupported i.query.mapper.dialect.name) i.sql := by
  have hconflict := conflictClause_failsOnly hm (first.fieldNames.map m.toColumn)
  have hreturning := Mapper.returning_failsOnly hm i.returning
  rw [sql_of_alike hm hrows hodd]
  dsimp only
  rw [valuesSql_of_fields hrows hfields (List.length_map _).symm, ok_bind]
  exact FailsOnly.bind (fun e he => .inl (hconflict e he)) fun conflict =>
    FailsOnly.bind (fun e he => .inr (hreturning e he)) fun returning => .ok _

/-- Rows with other fields than the first one are refused. Otherwise only the conflict clause and
the returned fields can be refused, and every insert that can be built binds each value of a row to
the column of its field, in whatever order the row lists its fields. -/
theorem sql_bindsCells (hdistinct : ∀ row ∈ i.rows, row.Distinct) :
    ((∃ index, i.sql = .error (.invalidQuery (.rowFields index i.query.model))) ↔
      ∃ row ∈ i.rows, ¬SameFields first.fieldNames row) ∧
    ((∀ row ∈ i.rows, SameFields first.fieldNames row) →
      FailsOnly (fun e => e = .invalidQuery (.emptyUpsert i.query.model) ∨
        e = .returningUnsupported i.query.mapper.dialect.name) i.sql) ∧
    ∀ sql, i.sql = .ok sql → i.CellByCell m first sql := by
  have hnames : first.fieldNames.Nodup := hdistinct first (hrows ▸ List.mem_cons_self)
  have hnone := oddRow?_eq_none_iff hnames hdistinct
  cases hodd : oddRow? first.fieldNames i.rows with
  | some index =>
    have hsql := sql_of_oddRow hm hrows hodd
    have hdiffers : ¬∀ row ∈ i.rows, SameFields first.fieldNames row := by
      rw [← hnone, hodd]
      exact Option.some_ne_none index
    refine ⟨⟨fun _ => by simpa using hdiffers, fun _ => ⟨index, hsql⟩⟩,
      fun hsame => absurd hsame hdiffers, fun sql h => ?_⟩
    rw [hsql] at h
    cases h
  | none =>
    have hsame := hnone.mp hodd
    have hfails := sql_failsOnly_of_alike hm hrows hfields hodd
    refine ⟨⟨?_, ?_⟩, fun _ => hfails, fun sql => cellByCell hm hrows hfields hodd hsame⟩
    · rintro ⟨index, herror⟩
      rcases hfails _ herror with he | he <;> cases he
    · rintro ⟨row, hrow, hdiffers⟩
      exact absurd (hsame row hrow) hdiffers

end

/-- Two posts, the second one with its fields in another order. -/
def twoPosts : Insert :=
  { query := Query.ofModel { registry := .blog, dialect := .postgresql } "Post"
    rows := [{ fields := [("id", .int 1), ("author", .int 7)] },
      { fields := [("author", .int 8), ("id", .int 2)] }] }

theorem sql_bindsCells_twoPosts : ∃ m first sql, Registry.blog.model "Post" = .ok m ∧
    twoPosts.rows.head? = some first ∧ first.fieldNames = ["id", "author"] ∧
    (∀ row ∈ twoPosts.rows, row.Distinct) ∧ twoPosts.sql = .ok sql ∧
    sql.text = "INSERT INTO \"posts\" (\"id\", \"user_id\") VALUES ($1, $2), ($3, $4)" ∧
    sql.args = [.int 1, .int 7, .int 2, .int 8] ∧ twoPosts.CellByCell m first sql := by
  have hdistinct : ∀ row ∈ twoPosts.rows, row.Distinct := by decide
  have htext : (twoPosts.sql.map Sql.text).toOption =
      some "INSERT INTO \"posts\" (\"id\", \"user_id\") VALUES ($1, $2), ($3, $4)" := by
    decide +kernel
  obtain ⟨m, hm⟩ : ∃ m, Registry.blog.model "Post" = .ok m := ⟨_, rfl⟩
  have hargs : twoPosts.sql.map Sql.args = .ok [.int 1, .int 7, .int 2, .int 8] := rfl
  obtain ⟨sql, hsql, htext⟩ := exists_ok_of_toOption htext
  rw [hsql] at hargs
  exact ⟨m, _, sql, hm, rfl, rfl, hdistinct, hsql, htext, Except.ok.inj hargs,
    (sql_bindsCells hm rfl (by decide) hdistinct).2.2 sql hsql⟩

end Insert
end RelMap
