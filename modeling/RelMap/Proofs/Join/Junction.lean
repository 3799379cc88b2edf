import Mathlib.Data.String.Basic
import RelMap.Proofs.Join.Follow

/-!
Tables between two models, as they are joined from either side. Both sides compare the keys with the
same columns of the same table, unless the names of the models differ in letter case only: the order
by which the table is named does not tell such names apart.
-/
namespace RelMap

theorem Naming.junctionTable_comm {a b : String}
    (h : Text.lower a = Text.lower b → tableName a = tableName b) :
    junctionTable a b = junctionTable b a := by
  by_cases hab : a = b
  · rw [hab]
  unfold junctionTable
  rw [if_neg hab, if_neg (Ne.symm hab)]
  rcases lt_trichotomy (Text.lower a) (Text.lower b) with hlt | heq | hgt
  · rw [if_neg hlt.not_gt, if_pos hlt]
  · rw [heq, if_neg (lt_irrefl _), if_neg (lt_irrefl _)]
    dsimp only
    rw [h heq]
  · rw [if_pos hgt, if_neg hgt.not_gt]

/-- A table between two models: the columns of their keys, and those that are compared with
them. -/
structure Junction where
  table : String
  nearKey : String
  nearColumn : String
  farColumn : String
  farKey : String

/-- The same table, seen from the other side. -/
def Junction.reverse (j : Junction) : Junction where
  table := j.table
  nearKey := j.farKey
  nearColumn := j.farColumn
  farColumn := j.nearColumn
  farKey := j.nearKey

/-- The two joins that lead over a junction from the table labelled `parent` to the one labelled
`label`. -/
def Junction.CrossedBy (j : Junction) (parent label : String) (joins : List Join) : Prop :=
  ∃ between far, joins = [between, far] ∧ between.isJunction = true ∧ far.isJunction = false ∧
    between.table = j.table ∧ far.label = label ∧
    between.predicate = ⟨parent, j.nearKey, between.label, j.nearColumn⟩ ∧
    far.predicate = ⟨between.label, j.farColumn, label, j.farKey⟩

namespace Planner

variable {p q p' q' : Planner} {call call' : Call} {near far nearLabel farLabel : String}
  {source target : Model} {label label' : String}

/-- A call that follows a many-to-many relation from one model to the key of another, over a path
that is not joined yet. -/
structure Links (p : Planner) (call : Call) (near far parent : String) (source target : Model) :
    Prop where
  source_eq : p.registry.model near = .ok source
  target_eq : p.registry.model far = .ok target
  call_mem : ∃ name r kind, source.relation name = .ok r ∧ r.kind = .manyToMany ∧
    r.model = far ∧ r.references = none ∧ p.labelAt? (p.pathFrom parent name) = none ∧
    call ∈ [.relation near parent name kind, .manyToMany near parent name kind]

theorem Links.crosses (h : p.Links call near far nearLabel source target)
    (hok : p.perform call = (.ok label, p')) :
    ∃ nearKey farKey joins, source.columnName source.primaryKeyName = .ok nearKey ∧
      target.columnName target.primaryKeyName = .ok farKey ∧ p'.joins = p.joins ++ joins ∧
      Junction.CrossedBy ⟨Naming.junctionTable near far, nearKey, junctionColumn source.table,
        junctionColumn target.table, farKey⟩ nearLabel label joins := by
  obtain ⟨name, r, kind, hr, hkind, rfl, hreferences, hnew, hcall⟩ := h.call_mem
  have hadds : p.Adds p' kind near nearLabel name (p.pathFrom nearLabel name) label := by
    simp only [List.mem_cons, List.not_mem_nil, or_false] at hcall
    rcases hcall with rfl | rfl
    · exact addRelation_adds hnew hok
    · exact addManyToMany_adds hnew hok
  obtain ⟨source', r', target', joins, hsource, hr', htarget, hfollows, hjoins⟩ := hadds.joins_eq
  obtain rfl := Except.ok.inj (h.source_eq.symm.trans hsource)
  obtain rfl := Except.ok.inj (hr.symm.trans hr')
  obtain rfl := Except.ok.inj (h.target_eq.symm.trans htarget)
  cases hfollows with
  | direct hmatched => exact absurd hkind hmatched.kind_ne
  | manyToMany _ hkey hreferred =>
    rw [hreferences] at hreferred
    exact ⟨_, _, _, Model.columnName_eq_ok.mpr ⟨_, hkey, rfl⟩,
      Model.columnName_eq_ok.mpr ⟨_, hreferred, rfl⟩, hjoins, _, _, rfl, rfl, rfl, rfl, rfl, rfl, rfl⟩

/-- The two sides of a many-to-many relation are joined over the same junction: its table and its
columns are the same whichever side the joins start from, in whatever planners. -/
theorem crosses_reverse (there : p.Links call near far nearLabel source target)
    (back : q.Links call' far near farLabel target source)
    (hcase : Text.lower near = Text.lower far → Naming.tableName near = Naming.tableName far)
    (hthere : p.perform call = (.ok label, p')) (hback : q.perform call' = (.ok label', q')) :
    ∃ j : Junction, source.columnName source.primaryKeyName = .ok j.nearKey ∧
      target.columnName target.primaryKeyName = .ok j.farKey ∧
      (∃ joins, p'.joins = p.joins ++ joins ∧ j.CrossedBy nearLabel label joins) ∧
      ∃ joins, q'.joins = q.joins ++ joins ∧ j.reverse.CrossedBy farLabel label' joins := by
  obtain ⟨nearKey, farKey, joins, hnear, hfar, hjoins, hcrossed⟩ := there.crosses hthere
  obtain ⟨farKey', nearKey', joins', hfar', hnear', hjoins', hcrossed'⟩ := back.crosses hback
  obtain rfl := Except.ok.inj (hnear.symm.trans hnear')
  obtain rfl := Except.ok.inj (hfar.symm.trans hfar')
  rw [← Naming.junctionTable_comm hcase] at hcrossed'
  exact ⟨_, hnear, hfar, ⟨joins, hjoins, hcrossed⟩, joins', hjoins', hcrossed'⟩

/-- A blog in which tags lead back to their posts. -/
def taggedBlog : Registry := Registry.blog.register {
  name := "Tag", table := "tags"
  fields := [{ name := "name", column := some "tag", primaryKey := true }]
  relations := [("posts", { kind := .manyToMany, model := "Post" })] }

theorem crosses_reverse_taggedBlog :
    let p := start taggedBlog "p"
    let q := (start taggedBlog "t").run [.reserve "pt"]
    ∃ j : Junction, j.nearKey = "id" ∧ j.farKey = "tag" ∧
      (∃ joins, (p.perform (.relation "Post" "p" "tags" .left)).2.joins = joins ∧
        j.CrossedBy "p" "t" joins) ∧
      ∃ joins, (q.perform (.manyToMany "Tag" "t" "posts" .inner)).2.joins = joins ∧
        j.reverse.CrossedBy "t" "p" joins := by
  intro p q
  have there := (⟨rfl, rfl, "tags", _, .left, rfl, rfl, rfl, rfl, rfl, List.mem_cons_self⟩ :
    p.Links (.relation "Post" "p" "tags" .left) "Post" "Tag" "p" _ _)
  have back := (⟨rfl, rfl, "posts", _, .inner, rfl, rfl, rfl, rfl, rfl,
    List.mem_cons_of_mem _ List.mem_cons_self⟩ :
    q.Links (.manyToMany "Tag" "t" "posts" .inner) "Tag" "Post" "t" _ _)
  have hthere : (p.perform (.relation "Post" "p" "tags" .left)).1.toOption = some "t" := by
    decide +kernel
  have hback : (q.perform (.manyToMany "Tag" "t" "posts" .inner)).1.toOption = some "p" := by
    decide +kernel
  obtain ⟨j, hnear, hfar, hcrossed, hreverse⟩ := crosses_reverse there back (by decide +kernel)
    (perform_eq_ok_of_toOption hthere) (perform_eq_ok_of_toOption hback)
  exact ⟨j, (Except.ok.inj hnear).symm, (Except.ok.inj hfar).symm, hcrossed, hreverse⟩

/-- Two models whose names differ in letter case only, but not their words. -/
def postVariants : Registry := .ofModels [
  { name := "BlogPost", table := "blog_posts"
    fields := [{ name := "id", primaryKey := true }]
    relations := [("drafts", { kind := .manyToMany, model := "Blogpost" })] },
  { name := "Blogpost", table := "blogposts"
    fields := [{ name := "id", primaryKey := true }]
    relations := [("finals", { kind := .manyToMany, model := "BlogPost" })] }]

/-- Each side of a relation between such models has a junction of its own. -/
theorem crosses_apart :
    let p := start postVariants "r"
    (p.perform (.manyToMany "BlogPost" "r" "drafts" .left)).1.toOption = some "b" ∧
    (p.perform (.manyToMany "Blogpost" "r" "finals" .left)).1.toOption = some "bp" ∧
    (p.perform (.manyToMany "BlogPost" "r" "drafts" .left)).2.joins.map Join.table =
      ["blog_post_blogposts", "blogposts"] ∧
    (p.perform (.manyToMany "Blogpost" "r" "finals" .left)).2.joins.map Join.table =
      ["blogpost_blog_posts", "blog_posts"] := by
  decide +kernel

end Planner
end RelMap
