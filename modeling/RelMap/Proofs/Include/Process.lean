import RelMap.Proofs.Include.Sort
import RelMap.Proofs.Outcome

/-!
What an include keeps of related records: those that pass its filter, in order, inside its window,
with the chosen fields. Windows of one size, one after the other, show all records.
-/
namespace RelMap

namespace Include

/-- Whether a record passes the filter, if there is one. -/
def passes [Regex.Engine] (i : Include) (r : Record) : Bool :=
  i.filter.all fun condition => (condition.evaluate r).toOption == some true

/-- Whether the filter of an include can be evaluated on all of these records. -/
def Filterable [Regex.Engine] (i : Include) (records : List Record) : Prop :=
  ∀ condition ∈ i.filter, ∀ r ∈ records, ∃ b, condition.evaluate r = .ok b

/-- Whether a field is kept: if it is chosen or part of the key, or if nothing is chosen. -/
def Keeps (i : Include) (model : Model) (name : String) : Prop :=
  i.select = [] ∨ name ∈ i.select ∨ ∃ f ∈ model.primaryKeyFields, f.name = name

instance (i : Include) (model : Model) (name : String) : Decidable (i.Keeps model name) :=
  inferInstanceAs (Decidable (_ ∨ _ ∨ _))

/-- A record with the fields that are kept, in their order, and with all of its relations. -/
def reduced (i : Include) (model : Model) (r : Record) : Record where
  fields := r.fields.filter fun field => decide (i.Keeps model field.1)
  relations := r.relations

variable {i : Include} {model : Model} {records : List Record}

theorem keepMatching_eq [Regex.Engine] (h : i.Filterable records) :
    i.keepMatching records = .ok (records.filter i.passes) := by
  unfold keepMatching
  cases hfilter : i.filter with
  | none =>
    have hall : records.filter i.passes = records :=
      List.filter_eq_self.mpr fun r _ => by simp [passes, hfilter]
    rw [hall]
  | some condition =>
    refine filterM_ok fun r hr => ?_
    obtain ⟨b, hb⟩ := h condition hfilter r hr
    rw [hb]
    cases b <;> simp [passes, hfilter, hb, Except.toOption]

theorem project_eq_reduced (i : Include) (model : Model) (r : Record) :
    i.project model r = i.reduced model r := by
  unfold project reduced
  split_ifs with hall
  · have hkept : ∀ field ∈ r.fields, decide (i.Keeps model field.1) = true := by
      intro field _
      exact decide_eq_true (.inl (List.isEmpty_iff.mp hall))
    rw [List.filter_eq_self.mpr hkept]
    cases r
    rfl
  · have hne : i.select ≠ [] := fun he => hall (by rw [he]; rfl)
    have hkept : ∀ name, ((model.primaryKeyFields.map Field.name).contains name ||
        i.select.contains name) = decide (i.Keeps model name) := by
      intro name
      simp [Keeps, hne, Bool.or_comm]
    unfold Record.retain
    simp only [hkept]

theorem getElem?_window (i : Include) (l : List Record) (j : Nat) :
    (i.window l)[j]? =
      if i.limit.all (fun limit => decide (j < limit)) then l[i.offset.getD 0 + j]? else none := by
  unfold window
  cases i.limit with
  | none => simp
  | some limit => simp [List.getElem?_take]

/-- Windows of one size, one after the other, show what one window of all these sizes shows. -/
theorem flatten_windows (l : List Record) (n pages : Nat) :
    ((List.range pages).map fun k => (l.drop (n * k)).take n).flatten = l.take (n * pages) := by
  induction pages with
  | zero => simp
  | succ pages ih =>
    rw [List.range_succ, List.map_append, List.flatten_append, ih, Nat.mul_succ, List.take_add]
    simp

theorem process_eq [Regex.Engine] (hfilter : i.Filterable records) : i.process model records =
    .ok ((i.window (sortRecords i.orderBy (records.filter i.passes))).map (i.reduced model)) := by
  unfold process
  rw [keepMatching_eq hfilter, ok_bind]
  refine congrArg Except.ok (List.map_congr_left fun r _ => project_eq_reduced i model r)

/-- The same include with another window. -/
def within (i : Include) (limit offset : Option Nat) : Include := { i with limit, offset }

/-- An include arranges the records that pass its filter and returns those inside its window, each
with the fields that are kept. The windows of `n` records from `0`, `n`, `2 * n` and so on together
return all records that the include returns without a window. -/
theorem process_arranged [Regex.Engine] (hfilter : i.Filterable records)
    (hkinds : Uniform i.orderBy records) :
    ∃ arranged, Arranged i.orderBy (records.filter i.passes) arranged ∧
      (∃ results, i.process model records = .ok results ∧
        ∀ j : Nat, results[j]? =
          if i.limit.all (fun limit => decide (j < limit)) then
            (arranged[i.offset.getD 0 + j]?).map (i.reduced model)
          else none) ∧
      ∀ n pages : Nat, arranged.length ≤ n * pages → ∃ results,
        ((List.range pages).mapM fun k =>
          (i.within (some n) (some (n * k))).process model records) = .ok results ∧
        (i.within none none).process model records = .ok results.flatten := by
  have hkept : Uniform i.orderBy (records.filter i.passes) := by
    intro t ht
    obtain ⟨kind, hkind⟩ := hkinds t ht
    exact ⟨kind, fun r hr => hkind r (List.mem_of_mem_filter hr)⟩
  refine ⟨_, sortRecords_arranged hkept, ⟨_, process_eq hfilter, fun j => ?_⟩, ?_⟩
  · rw [List.getElem?_map, getElem?_window]
    split_ifs <;> rfl
  · intro n pages hpages
    generalize harranged : sortRecords i.orderBy (records.filter i.passes) = arranged at hpages
    have hpage : ∀ limit offset, (i.within limit offset).process model records =
        .ok (((i.within limit offset).window arranged).map (i.reduced model)) := by
      intro limit offset
      rw [← harranged]
      exact process_eq hfilter
    simp only [hpage]
    refine ⟨_, mapM_ok _ _, congrArg Except.ok ?_⟩
    have hwindows := flatten_windows arranged n pages
    rw [List.take_of_length_le hpages] at hwindows
    calc arranged.map (i.reduced model)
        = (((List.range pages).map fun k => (arranged.drop (n * k)).take n).flatten).map
            (i.reduced model) := by rw [hwindows]
      _ = ((List.range pages).map fun k =>
            ((arranged.drop (n * k)).take n).map (i.reduced model)).flatten := by
          rw [List.map_flatten, List.map_map]
          rfl

/-- The titles of the posts with some views, most recent day first and then by views, after the
first one. -/
def recentTitles : Include where
  path := "posts"
  select := ["title"]
  filter := some (FieldRef.satisfies ⟨"views", none⟩ (.ne (.int 0)))
  orderBy := [{ field := "day", direction := .descending }, { field := "views" }]
  limit := some 2
  offset := some 1

/-- Posts with their day, which is not known of the last one. -/
def datedPosts : List Record :=
  let post (id : Int) (title : String) (views : Int) (day : Value) : Record :=
    .ofFields [("id", .int id), ("title", .text title), ("views", .int views), ("day", day)]
  [post 1 "a" 5 (.date ⟨2024, 1, 2⟩), post 2 "b" 0 (.date ⟨2024, 1, 3⟩),
    post 3 "c" 5 (.date ⟨2024, 1, 2⟩), post 4 "d" 9 (.date ⟨2023, 12, 31⟩), post 5 "e" 7 .null]

def postModel : Model :=
  { Model.named "Post" with fields := [{ name := "id", primaryKey := true }, { name := "title" }] }

theorem process_arranged_recentTitles :
    recentTitles.Filterable datedPosts ∧ Uniform recentTitles.orderBy datedPosts ∧
      ∃ arranged results, Arranged recentTitles.orderBy
          (datedPosts.filter recentTitles.passes) arranged ∧
        recentTitles.process postModel datedPosts = .ok results ∧
        results.map Record.fields = [[("id", .int 3), ("title", .text "c")],
          [("id", .int 4), ("title", .text "d")]] ∧
        (arranged[2]?).map (recentTitles.reduced postModel) = results[1]? := by
  have hfilter : recentTitles.Filterable datedPosts := by
    rintro _ ⟨⟩ r _
    exact ⟨_, rfl⟩
  have hkinds : Uniform recentTitles.orderBy datedPosts := by
    intro t ht
    rcases List.mem_pair.mp ht with rfl | rfl
    · exact ⟨.date, by decide⟩
    · exact ⟨.int, by decide⟩
  obtain ⟨arranged, harranged, hprocess, -⟩ := process_arranged hfilter hkinds
  obtain ⟨results, hresults, hwindow⟩ := hprocess
  refine ⟨hfilter, hkinds, arranged, results, harranged, hresults, ?_, (hwindow 1).symm⟩
  have hrun : ∃ a b, recentTitles.process postModel datedPosts = .ok [a, b] ∧
      a.fields = [("id", .int 3), ("title", .text "c")] ∧
      b.fields = [("id", .int 4), ("title", .text "d")] := ⟨_, _, rfl, rfl, rfl⟩
  obtain ⟨a, b, hrun, ha, hb⟩ := hrun
  obtain rfl := Except.ok.inj (hresults.symm.trans hrun)
  rw [List.map_cons, List.map_singleton, ha, hb]

end Include

end RelMap
