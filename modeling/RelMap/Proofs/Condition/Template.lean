import RelMap.Proofs.Condition.Basic
import RelMap.Proofs.Dialect.Template

/-! Conditions as templates. The operands of a comparison stand behind its column, and the leaves
of a tree of conditions one after the other, from left to right. -/
namespace RelMap

open Placeholder (Closed)
open Template (ofText binding listed)

namespace Lookup

/-- The operands that become arguments. -/
def operands : Lookup → List Value
  | .isNull => []
  | .isNotNull => []
  | .eq value => if value.isNull then [] else [value]
  | .ne value => if value.isNull then [] else [value]
  | .gt value => [value]
  | .gte value => [value]
  | .lt value => [value]
  | .lte value => [value]
  | .like pattern => [.text pattern]
  | .notLike pattern => [.text pattern]
  | .between low high => [low, high]
  | .oneOf values => values
  | .noneOf values => values

/-- What a lookup asks of a column, with its operands in their places. -/
def template (column : String) : Lookup → Template
  | .isNull => ofText (column ++ " IS NULL")
  | .isNotNull => ofText (column ++ " IS NOT NULL")
  | .eq value =>
    if value.isNull then ofText (column ++ " IS NULL") else binding (column ++ " = ") value
  | .ne value =>
    if value.isNull then ofText (column ++ " IS NOT NULL") else binding (column ++ " != ") value
  | .gt value => binding (column ++ " > ") value
  | .gte value => binding (column ++ " >= ") value
  | .lt value => binding (column ++ " < ") value
  | .lte value => binding (column ++ " <= ") value
  | .like pattern => binding (column ++ " LIKE ") (.text pattern)
  | .notLike pattern => binding (column ++ " NOT LIKE ") (.text pattern)
  | .between low high => binding (column ++ " BETWEEN ") low ++ binding " AND " high
  | .oneOf values =>
    if values.isEmpty then ofText "1 = 0"
    else ofText (column ++ " IN (") ++ listed values ++ ofText ")"
  | .noneOf values =>
    if values.isEmpty then ofText "1 = 1"
    else ofText (column ++ " NOT IN (") ++ listed values ++ ofText ")"

theorem sql_template (column : String) (lookup : Lookup) :
    (lookup.template column).sql = lookup.render column := by
  cases lookup with
  | eq value =>
    by_cases hnull : value.isNull <;>
      simp [template, render, hnull, Template.sql, String.append_assoc]
  | ne value =>
    by_cases hnull : value.isNull <;>
      simp [template, render, hnull, Template.sql, String.append_assoc]
  | oneOf values =>
    by_cases hempty : values.isEmpty <;>
      simp [template, render, hempty, Template.sql, -List.append_assoc]
  | noneOf values =>
    by_cases hempty : values.isEmpty <;>
      simp [template, render, hempty, Template.sql, -List.append_assoc]
  | _ => simp [template, render, Template.sql, String.append_assoc]

theorem values_template (column : String) (lookup : Lookup) :
    (lookup.template column).values = lookup.operands := by
  cases lookup with
  | eq value => by_cases hnull : value.isNull <;> simp [template, operands, hnull]
  | ne value => by_cases hnull : value.isNull <;> simp [template, operands, hnull]
  | oneOf values => by_cases hempty : values.isEmpty <;> simp_all [template, operands]
  | noneOf values => by_cases hempty : values.isEmpty <;> simp_all [template, operands]
  | _ => simp [template, operands]

theorem sound_template {column : String} (hcolumn : Closed column) (lookup : Lookup) :
    (lookup.template column).Sound := by
  have htext : ∀ {text : String}, Closed text → (ofText (column ++ text)).Sound :=
    fun h => Template.sound_ofText (hcolumn.append h)
  have hvalue : ∀ {text : String} {value}, Closed text → (binding (column ++ text) value).Sound :=
    fun h => Template.sound_binding (hcolumn.append h) _
  have hlist : ∀ {text : String} {values}, Closed text →
      (ofText (column ++ text) ++ listed values ++ ofText ")").Sound :=
    fun h => ((htext h).append (Template.sound_listed _)).append (Template.sound_ofText (by decide))
  cases lookup with
  | isNull => exact htext (by decide)
  | isNotNull => exact htext (by decide)
  | between low high => exact (hvalue (by decide)).append (Template.sound_binding (by decide) high)
  | eq value | ne value =>
    dsimp only [template]
    split_ifs
    · exact htext (by decide)
    · exact hvalue (by decide)
  | oneOf values | noneOf values =>
    dsimp only [template]
    split_ifs
    · exact Template.sound_ofText (by decide)
    · exact hlist (by decide)
  | _ => exact hvalue (by decide)

end Lookup

/-- In a scope with a dialect every part of a column is quoted. -/
theorem Scope.closed_columnFor {s : Scope} (hs : s.dialect.isSome = true) {field : FieldRef}
    {column : String} (h : s.columnFor field = .ok column) : Closed column := by
  obtain ⟨d, hd⟩ := Option.isSome_iff_exists.mp hs
  have hquote : ∀ identifier, Closed (s.quote identifier) := by
    intro identifier
    rw [quote, hd]
    exact d.closed_quote identifier
  obtain ⟨name, -, h⟩ := bind_eq_ok.mp h
  obtain ⟨label, -, h⟩ := bind_eq_ok.mp h
  obtain rfl := pure_eq_ok.mp h
  split_ifs
  · exact hquote name
  · exact ((hquote label).append (by decide)).append (hquote name)

namespace Condition

mutual
/-- The comparisons and fragments of a condition from left to right. -/
def leaves : Condition → List Condition
  | .compare comparison => [.compare comparison]
  | .all conditions => leavesOfAll conditions
  | .any conditions => leavesOfAll conditions
  | .not condition => leaves condition
  | .raw sql args => [.raw sql args]

def leavesOfAll : List Condition → List Condition
  | [] => []
  | condition :: rest => leaves condition ++ leavesOfAll rest
end

/-- The values that a leaf binds. -/
def bound : Condition → List Value
  | .compare comparison => comparison.lookup.operands
  | .raw _ args => args
  | _ => []

/-- The values that a condition binds, leaf by leaf. -/
def operands (c : Condition) : List Value := c.leaves.flatMap bound

/-- The quotes of every fragment are closed, and it has a placeholder for each of its arguments. -/
def Fits (c : Condition) : Prop :=
  ∀ sql args, .raw sql args ∈ c.leaves →
    Placeholder.Balanced sql ∧ Placeholder.count sql = args.length

mutual
/-- A condition with its operands in their places. -/
def template (s : Scope) : Condition → Except Error Template
  | .compare comparison => return comparison.lookup.template (← s.columnFor comparison.field)
  | .all conditions => return .group " AND " (← templates s conditions)
  | .any conditions => return .group " OR " (← templates s conditions)
  | .not condition => return .negation (← template s condition)
  | .raw sql args => .ok (.fill none sql.toList args)

def templates (s : Scope) : List Condition → Except Error (List Template)
  | [] => .ok []
  | condition :: rest => return (← template s condition) :: (← templates s rest)
end

/-- The conjunction of conditions with their operands in their places. -/
def conjunctionTemplate (s : Scope) (conditions : List Condition) : Except Error Template :=
  return .conjunction (← templates s conditions)

/-- The template of a condition; nothing without one. -/
def optionalTemplate (s : Scope) : Option Condition → Except Error Template
  | none => .ok []
  | some c => c.template s

theorem leavesOfAll_eq_flatMap (conditions : List Condition) :
    leavesOfAll conditions = conditions.flatMap leaves := by
  induction conditions with
  | nil => rfl
  | cons c conditions ih => rw [leavesOfAll, List.flatMap_cons, ih]

theorem templates_eq_mapM (s : Scope) (conditions : List Condition) :
    templates s conditions = conditions.mapM (template s) := by
  induction conditions with
  | nil => rfl
  | cons c conditions ih => rw [List.mapM_cons, templates, ih]

theorem operands_eq_flatMap {c : Condition} {conditions : List Condition}
    (h : c.leaves = leavesOfAll conditions) : c.operands = conditions.flatMap operands := by
  rw [operands, h, leavesOfAll_eq_flatMap, List.flatMap_assoc]
  rfl

theorem fits_of_mem {c : Condition} {conditions : List Condition}
    (h : c.leaves = leavesOfAll conditions) (hfits : c.Fits) : ∀ d ∈ conditions, d.Fits := by
  intro d hd sql args hleaf
  refine hfits sql args ?_
  rw [h, leavesOfAll_eq_flatMap]
  exact List.mem_flatMap.mpr ⟨d, hd, hleaf⟩

variable {s : Scope}

private theorem templates_spellAll_of_mem {conditions : List Condition}
    (hmem : ∀ c ∈ conditions, c.Fits → ∀ {sql}, c.render s = .ok sql →
      ∃ t, c.template s = .ok t ∧ t.Spells sql c.operands)
    (hfits : ∀ c ∈ conditions, c.Fits) {parts : List Sql}
    (h : renderAll s conditions = .ok parts) :
    ∃ ts, templates s conditions = .ok ts ∧
      Template.SpellAll ts parts (conditions.flatMap operands) := by
  rw [renderAll_eq_mapM] at h
  rw [templates_eq_mapM]
  exact Template.mapM_spellAll (fun c hc sql => hmem c hc (hfits c hc)) h

/-- Whatever the tree of a condition, its SQL is read from a sound template with the operands of
its leaves from left to right. -/
theorem template_spells (hs : s.dialect.isSome = true) {c : Condition} (hfits : c.Fits) {sql : Sql}
    (h : c.render s = .ok sql) : ∃ t, c.template s = .ok t ∧ t.Spells sql c.operands := by
  induction c generalizing sql with
  | compare comparison =>
    obtain ⟨column, hcolumn, h⟩ := bind_eq_ok.mp h
    obtain rfl := pure_eq_ok.mp h
    refine ⟨comparison.lookup.template column, ?_, ?_, ?_, ?_⟩
    · rw [template, hcolumn]
      rfl
    · exact comparison.lookup.sql_template column
    · exact comparison.lookup.sound_template (s.closed_columnFor hs hcolumn)
    · rw [Lookup.values_template]
      simp [operands, leaves, bound]
  | all conditions ih =>
    obtain ⟨parts, hparts, h⟩ := bind_eq_ok.mp h
    obtain rfl := pure_eq_ok.mp h
    obtain ⟨ts, hts, hall⟩ := templates_spellAll_of_mem ih (fits_of_mem rfl hfits) hparts
    rw [operands_eq_flatMap rfl, template, hts]
    exact ⟨_, rfl, hall.group (by decide)⟩
  | any conditions ih =>
    obtain ⟨parts, hparts, h⟩ := bind_eq_ok.mp h
    obtain rfl := pure_eq_ok.mp h
    obtain ⟨ts, hts, hall⟩ := templates_spellAll_of_mem ih (fits_of_mem rfl hfits) hparts
    rw [operands_eq_flatMap rfl, template, hts]
    exact ⟨_, rfl, hall.group (by decide)⟩
  | not condition ih =>
    obtain ⟨inner, hinner, h⟩ := bind_eq_ok.mp h
    obtain rfl := pure_eq_ok.mp h
    obtain ⟨t, ht, hspells⟩ := ih hfits hinner
    obtain rfl := hspells.sql_eq
    refine ⟨.negation t, ?_, t.sql_negation, hspells.sound.negation, ?_⟩
    · rw [template, ht]
      rfl
    · rw [Template.values_negation, hspells.values_eq]
      rfl
  | raw text args =>
    obtain rfl := Except.ok.inj h
    obtain ⟨hbalanced, hcount⟩ := hfits text args (by simp [leaves])
    have hoperands : operands (.raw text args) = args := by simp [operands, leaves, bound]
    rw [hoperands]
    exact ⟨_, rfl, Template.fill_spells hbalanced hcount⟩

theorem conjunctionTemplate_spells (hs : s.dialect.isSome = true) {conditions : List Condition}
    (hfits : ∀ c ∈ conditions, c.Fits) {filter : Sql}
    (h : conjunction s conditions = .ok filter) :
    ∃ t, conjunctionTemplate s conditions = .ok t ∧
      t.Spells filter (conditions.flatMap operands) := by
  obtain ⟨parts, hparts, h⟩ := bind_eq_ok.mp h
  obtain rfl := pure_eq_ok.mp h
  obtain ⟨ts, hts, hall⟩ :=
    templates_spellAll_of_mem (fun c _ hc => template_spells hs hc) hfits hparts
  rw [conjunctionTemplate, hts]
  exact ⟨_, rfl, hall.conjunction⟩

theorem optionalTemplate_spells (hs : s.dialect.isSome = true)
    {condition? : Option Condition} (hfits : ∀ c ∈ condition?, c.Fits) {having : Sql}
    (h : condition?.elim (.ok ⟨"", []⟩) (render s) = .ok having) :
    ∃ t, optionalTemplate s condition? = .ok t ∧
      t.Spells having (condition?.toList.flatMap operands) := by
  cases condition? with
  | none =>
    obtain rfl := Except.ok.inj h
    exact ⟨[], rfl, rfl, .nil, rfl⟩
  | some c =>
    obtain ⟨t, ht, hspells⟩ := template_spells hs (hfits c rfl) h
    exact ⟨t, ht, hspells.sql_eq, hspells.sound, by simp [hspells.values_eq]⟩

end Condition
end RelMap
