import RelMap.Proofs.Condition.Resolution
import RelMap.Proofs.Dialect.Parentheses
import RelMap.Proofs.Join.Run

/-! How written conditions are read back. Their parentheses match outside identifiers, so that the
connective of several conditions and the text of each can be told from what is written. -/
namespace RelMap

open Parentheses (Balanced outline)

variable {d : Dialect} {s : Scope}

theorem Lookup.balanced_render {column : String} (hcolumn : Balanced d column) (lookup : Lookup) :
    Balanced d (lookup.render column).text := by
  have hplain : ∀ {text : String}, text.toList.all Parentheses.isPlain = true →
      Balanced d (column ++ text) := fun htext => hcolumn.append (.of_plain htext)
  have hlist : ∀ (text : String) (count : Nat), text.toList.all Parentheses.isPlain = true →
      Balanced d (column ++ (text ++ "(") ++
        Text.joinWith ", " (Placeholder.listed count) ++ ")") := by
    intro text count htext
    have hmarks : Balanced d (Text.joinWith ", " (Placeholder.listed count)) := by
      refine .joinWith (.of_plain (by decide)) fun part hpart => ?_
      rw [List.eq_of_mem_replicate hpart]
      exact .of_plain (by decide)
    simpa only [Sql.parenthesized, String.append_assoc] using
      (hplain htext).append hmarks.parenthesized
  cases lookup with
  | eq value | ne value =>
    dsimp only [render]
    split_ifs
    · exact hplain (by decide)
    · exact hplain (by decide)
  | oneOf values =>
    dsimp only [render]
    split_ifs
    · exact .of_plain (by decide)
    · exact hlist " IN " values.length (by decide)
  | noneOf values =>
    dsimp only [render]
    split_ifs
    · exact .of_plain (by decide)
    · exact hlist " NOT IN " values.length (by decide)
  | _ => exact hplain (by decide)

/-- Every part of a column is quoted. -/
theorem Scope.balanced_columnFor (hs : s.dialect = some d) {field : FieldRef} {column : String}
    (h : s.columnFor field = .ok column) : Balanced d column := by
  obtain ⟨m, label, -, -, rfl⟩ := Scope.columnFor_eq_ok.mp h
  have hquote : ∀ identifier, Balanced d (s.quote identifier) := by
    intro identifier
    rw [quote, hs]
    exact Parentheses.balanced_quote d identifier
  unfold qualified
  split_ifs
  · exact hquote _
  · exact ((hquote label).append (.of_plain (by decide))).append (hquote _)

theorem Sql.balanced_group {joiner : String} {parts : List Sql} (hjoiner : Balanced d joiner)
    (hparts : ∀ part ∈ parts, Balanced d part.text) : Balanced d (group joiner parts).text := by
  refine Balanced.joinWith hjoiner fun text htext => ?_
  obtain ⟨part, hpart, rfl⟩ := List.mem_map.mp htext
  exact (hparts part (List.mem_of_mem_filter hpart)).parenthesized

namespace Condition

private theorem balanced_renderAll_of_mem {conditions : List Condition} {parts : List Sql}
    (hmem : ∀ c ∈ conditions, c.rawFree = true → ∀ {sql}, c.render s = .ok sql →
      Balanced d sql.text)
    (hfree : ∀ c ∈ conditions, c.rawFree = true) (h : renderAll s conditions = .ok parts) :
    ∀ part ∈ parts, Balanced d part.text := by
  rw [renderAll_eq_mapM] at h
  intro part hpart
  obtain ⟨c, hc, hrender⟩ := exists_left_of_forall₂ (forall₂_of_mapM_eq_ok h) hpart
  exact hmem c hc (hfree c hc) hrender

/-- The parentheses of a written condition match outside identifiers. -/
theorem balanced_render (hs : s.dialect = some d) {c : Condition} (hfree : c.rawFree = true)
    {sql : Sql} (h : c.render s = .ok sql) : Balanced d sql.text := by
  induction c generalizing sql with
  | compare comparison =>
    obtain ⟨column, hcolumn, h⟩ := bind_eq_ok.mp h
    obtain rfl := pure_eq_ok.mp h
    exact comparison.lookup.balanced_render (Scope.balanced_columnFor hs hcolumn)
  | all conditions ih | any conditions ih =>
    obtain ⟨parts, hparts, h⟩ := bind_eq_ok.mp h
    obtain rfl := pure_eq_ok.mp h
    exact Sql.balanced_group (.of_plain (by decide))
      (balanced_renderAll_of_mem ih (allRawFree_iff.mp hfree) hparts)
  | not condition ih =>
    obtain ⟨inner, hinner, h⟩ := bind_eq_ok.mp h
    obtain rfl := pure_eq_ok.mp h
    have hbalanced := ih hfree hinner
    split_ifs
    · exact .of_plain (by decide)
    · exact Balanced.append (a := "NOT ") (.of_plain (by decide)) hbalanced.parenthesized
  | raw text args => exact absurd hfree Bool.false_ne_true

theorem balanced_renderAll (hs : s.dialect = some d) {conditions : List Condition}
    {parts : List Sql} (hfree : ∀ c ∈ conditions, c.rawFree = true)
    (h : renderAll s conditions = .ok parts) : ∀ part ∈ parts, Balanced d part.text :=
  balanced_renderAll_of_mem (fun _ _ hfree _ => balanced_render hs hfree) hfree h

end Condition

inductive Connective where
  | and
  | or
  deriving DecidableEq

def Connective.joiner : Connective → String
  | .and => " AND "
  | .or => " OR "

/-- Conditions that are combined: in a conjunction or a disjunction, or side by side as those of a
query are, which asks for all of them. -/
inductive Combination where
  | all (conditions : List Condition)
  | any (conditions : List Condition)
  | each (conditions : List Condition)

namespace Combination

def connective : Combination → Connective
  | .all _ => .and
  | .any _ => .or
  | .each _ => .and

def conditions : Combination → List Condition
  | .all conditions => conditions
  | .any conditions => conditions
  | .each conditions => conditions

def render (s : Scope) : Combination → Except Error Sql
  | .all conditions => (Condition.all conditions).render s
  | .any conditions => (Condition.any conditions).render s
  | .each conditions => Condition.conjunction s conditions

/-- The texts of those conditions that have any. -/
def texts (s : Scope) (g : Combination) : Except Error (List String) :=
  return (Sql.nonEmpty (← Condition.renderAll s g.conditions)).map Sql.text

/-- Several conditions without fragments of SQL, combined and written in a dialect. -/
structure Written (d : Dialect) (s : Scope) (g : Combination) (texts : List String)
    (text : String) : Prop where
  dialect_eq : s.dialect = some d
  rawFree : ∀ c ∈ g.conditions, c.rawFree = true
  texts_eq : g.texts s = .ok texts
  several : 2 ≤ texts.length
  render_eq : ∃ sql, g.render s = .ok sql ∧ sql.text = text

variable {g g' : Combination} {text : String} {texts texts' : List String}

namespace Written

theorem balanced (h : Written d s g texts text) : ∀ part ∈ texts, Balanced d part := by
  intro part hpart
  obtain ⟨parts, hparts, heq⟩ := bind_eq_ok.mp h.texts_eq
  obtain rfl := pure_eq_ok.mp heq
  obtain ⟨sql, hsql, rfl⟩ := List.mem_map.mp hpart
  exact Condition.balanced_renderAll h.dialect_eq h.rawFree hparts sql
    (List.mem_of_mem_filter hsql)

/-- Several conditions stand in parentheses of their own, whichever way they are combined. -/
theorem text_eq (h : Written d s g texts text) :
    text = Text.joinWith g.connective.joiner (texts.map Sql.parenthesized) := by
  obtain ⟨parts, hparts, heq⟩ := bind_eq_ok.mp h.texts_eq
  obtain rfl := pure_eq_ok.mp heq
  obtain ⟨sql, hsql, rfl⟩ := h.render_eq
  have hseveral := h.several
  rw [List.length_map] at hseveral
  rw [List.map_map]
  cases g with
  | all conditions | any conditions =>
    obtain ⟨parts', hparts', hsql⟩ := bind_eq_ok.mp hsql
    obtain rfl := Except.ok.inj (hparts.symm.trans hparts')
    obtain rfl := pure_eq_ok.mp hsql
    rfl
  | each conditions =>
    obtain ⟨parts', hparts', hsql⟩ := bind_eq_ok.mp hsql
    obtain rfl := Except.ok.inj (hparts.symm.trans hparts')
    obtain rfl := pure_eq_ok.mp hsql
    unfold Sql.conjunction
    split
    · next part hsingle => simp [hsingle] at hseveral
    · rfl

theorem eq_of_text_eq {s' : Scope} (h : Written d s g texts text)
    (h' : Written d s' g' texts' text) : g.connective = g'.connective ∧ texts = texts' := by
  have htext := h.text_eq.symm.trans h'.text_eq
  obtain ⟨x, y, hjoiner⟩ := Parentheses.joiner_of_joinWith_eq h.balanced h'.balanced h.several
    h'.several htext
  have hconnective : g.connective = g'.connective := by
    have hlist := congrArg String.toList hjoiner
    cases hg : g.connective <;> cases hg' : g'.connective <;>
      first
      | rfl
      | simp [hg, hg', Connective.joiner] at hlist
  rw [hconnective] at htext
  exact ⟨hconnective, Parentheses.joinWith_parenthesized_inj h.balanced h'.balanced htext⟩

/-- Outside all parentheses nothing is written but the one connective. -/
theorem outline_eq (h : Written d s g texts text) :
    outline d text = Text.joinWith g.connective.joiner (List.replicate texts.length "()") := by
  have hjoiner : Balanced d g.connective.joiner := by
    cases g.connective <;> exact .of_plain (by decide)
  have houtline : outline d g.connective.joiner = g.connective.joiner := by
    cases d <;> cases g.connective <;> rfl
  rw [h.text_eq, Parentheses.outline_joinWith_parenthesized hjoiner houtline h.balanced]

end Written

/-- Written conditions are read in one way. Their parentheses match outside identifiers, what
several conditions are written as tells their connective and the text of each, and no other
connective stands outside the parentheses around these. -/
theorem render_readable (d : Dialect) :
    (∀ (s : Scope) (c : Condition) (sql : Sql), s.dialect = some d → c.rawFree = true →
      c.render s = .ok sql → Balanced d sql.text) ∧
    (∀ (s s' : Scope) (g g' : Combination) (texts texts' : List String) (text : String),
      Written d s g texts text → Written d s' g' texts' text →
      g.connective = g'.connective ∧ texts = texts') ∧
    ∀ (s : Scope) (g : Combination) (texts : List String) (text : String),
      Written d s g texts text →
      outline d text = Text.joinWith g.connective.joiner (List.replicate texts.length "()") := by
  refine ⟨?_, ?_, ?_⟩
  · exact fun s c sql hs hfree h => Condition.balanced_render hs hfree h
  · exact fun s s' g g' texts texts' text h h' => h.eq_of_text_eq h'
  · exact fun s g texts text h => h.outline_eq

/-- Posts of one of two authors that are not among the first, with a part that asks for nothing. -/
def laterPosts : List Condition :=
  [.any [.compare ⟨⟨"author", none⟩, .eq (.int 1)⟩, .compare ⟨⟨"author", none⟩, .isNull⟩],
    .all [], .not (.compare ⟨⟨"id", some "Post"⟩, .between (.int 1) (.int 9)⟩)]

/-- Posts and nothing else, quoted as in PostgreSQL. -/
def postScope : Scope :=
  { registry := .blog, model := "Post", label := "p", dialect := some .postgresql }

/-- It makes no difference whether the conditions are those of a query or of one conjunction. -/
theorem render_readable_laterPosts :
    (∃ sql, (Condition.all laterPosts).render postScope = .ok sql ∧
      Balanced .postgresql sql.text) ∧
    ∃ texts text, Written .postgresql postScope (.all laterPosts) texts text ∧
      Written .postgresql postScope (.each laterPosts) texts text ∧
      (Combination.all laterPosts).connective = (Combination.each laterPosts).connective ∧
      outline .postgresql text = "() AND ()" := by
  have hfree : ∀ c ∈ laterPosts, c.rawFree = true := by decide
  obtain ⟨texts, htexts, hlength⟩ := exists_ok_of_toOption
    (x := (Combination.all laterPosts).texts postScope) (f := List.length) (b := 2)
    (by decide +kernel)
  have hwritten : ∀ g ∈ [Combination.all laterPosts, .each laterPosts], ∃ sql,
      g.render postScope = .ok sql ∧
        sql.text = "((\"p\".\"user_id\" = ?) OR (\"p\".\"user_id\" IS NULL)) AND " ++
          "(NOT (\"p\".\"id\" BETWEEN ? AND ?))" := by
    intro g hg
    rcases List.mem_pair.mp hg with rfl | rfl
    · exact exists_ok_of_toOption (by decide +kernel)
    · exact exists_ok_of_toOption (by decide +kernel)
  have hall : Written .postgresql postScope (.all laterPosts) texts _ :=
    ⟨rfl, hfree, htexts, hlength.ge, hwritten _ List.mem_cons_self⟩
  have heach : Written .postgresql postScope (.each laterPosts) texts _ :=
    ⟨rfl, hfree, htexts, hlength.ge, hwritten _ (by simp)⟩
  obtain ⟨hbalanced, hreads, houtline⟩ := render_readable .postgresql
  obtain ⟨sql, hsql, -⟩ := hwritten _ List.mem_cons_self
  have hrawFree : (Condition.all laterPosts).rawFree = true := Condition.allRawFree_iff.mpr hfree
  refine ⟨⟨sql, hsql, hbalanced postScope _ sql rfl hrawFree hsql⟩, texts, _, hall, heach,
    (hreads _ _ _ _ _ _ _ hall heach).1, ?_⟩
  rw [houtline _ _ _ _ hall, hlength]
  rfl

end Combination
end RelMap
