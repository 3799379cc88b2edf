import RelMap.Proofs.Hydration.View

/-! Forests of records and the rows that a left join makes of them. -/
namespace RelMap.Nested

/-- A record with its children in every slot. -/
inductive Node where
  | mk (fields : List (String × Value)) (children : Nat → List Node)

namespace Node

def fields : Node → List (String × Value)
  | mk fields _ => fields

def children : Node → Nat → List Node
  | mk _ children => children

/-- The key of a node of a slot. -/
def key? (p : Plan) (slot : Nat) (n : Node) : Option (List Key) :=
  p.slots[slot]?.bind fun s => s.model.recordKey? { fields := n.fields }

/-- The record of a node of a slot, with the records of all nodes below it. -/
def record (p : Plan) (slot : Nat) (n : Node) : Record :=
  { fields := n.fields
    relations := (p.childSlots slot).attach.map fun ⟨(i, s, b), _⟩ =>
      (b.relation, related s ((n.children i).map (record p i))) }
termination_by p.slots.length - slot
decreasing_by
  have := Plan.lt_of_mem_childrenOf (Plan.of_mem_childSlots ‹_›).1
  omega

end Node

/-- The fields that the columns of a result have for a slot. -/
def fieldNames (p : Plan) (columns : List String) (slot : Nat) : List String :=
  (((Layout.ofColumns p columns).targets.filter fun t => t.1 = slot).map (·.2)).eraseDups

/-- The nodes of a forest, with their slots. -/
inductive Within (roots : List Node) : Nat → Node → Prop
  | root {n : Node} (h : n ∈ roots) : Within roots 0 n
  | child {slot c : Nat} {n child : Node} (h : Within roots slot n) (hc : child ∈ n.children c) :
      Within roots c child

/-- A node of a slot: it has the fields of the slot and a key, children of different keys in the
slots that hang from it, and at most one child where these are to-one. -/
structure Node.Fits (p : Plan) (columns : List String) (slot : Nat) (n : Node) : Prop where
  fields_eq : OrderedMap.keys n.fields = fieldNames p columns slot
  key?_ne_none : n.key? p slot ≠ none
  children_of : ∀ c child, child ∈ n.children c → c ∈ p.childrenOf slot
  keys_nodup : ∀ c, ((n.children c).map (key? p c)).Nodup
  length_le : ∀ c s, p.slots[c]? = some s → s.isToMany = false → (n.children c).length ≤ 1

/-- A forest over the slots of a plan. Nodes of one slot and one key are the same wherever they
are met. -/
structure Forest (p : Plan) (columns : List String) (roots : List Node) : Prop where
  fits : ∀ slot n, Within roots slot n → n.Fits p columns slot
  keys_nodup : (roots.map (Node.key? p 0)).Nodup
  eq_of_key : ∀ slot m n, Within roots slot m → Within roots slot n →
    m.key? p slot = n.key? p slot → m = n

/-- A joined row: the fields that it has for each slot, none for a slot that is absent. -/
abbrev JoinedRow := Nat → Option (List (String × Value))

namespace JoinedRow

def absent : JoinedRow := fun _ => none

def single (slot : Nat) (fields : List (String × Value)) : JoinedRow :=
  fun i => if i = slot then some fields else none

def join (a b : JoinedRow) : JoinedRow := fun i => (a i).or (b i)

/-- The values of a row under these columns, `NULL` where its slot is absent. -/
def values (p : Plan) (columns : List String) (row : JoinedRow) : List Value :=
  (Layout.ofColumns p columns).targets.map fun t =>
    ((row t.1).bind (OrderedMap.find? t.2)).getD .null

end JoinedRow

/-- The rows of a product, those of the last factor varying fastest. -/
def product : List (List JoinedRow) → List JoinedRow
  | [] => [.absent]
  | rows :: rest => rows.flatMap fun a => (product rest).map a.join

/-- A left join keeps a row without a match. -/
def orAbsent (rows : List JoinedRow) : List JoinedRow :=
  if rows.isEmpty then [.absent] else rows

/-- The rows of a node: all combinations of the rows of its children in different slots. -/
def Node.rows (p : Plan) (slot : Nat) (n : Node) : List JoinedRow :=
  (product ((p.childrenOf slot).attach.map fun ⟨c, _⟩ =>
    orAbsent ((n.children c).flatMap (rows p c)))).map (JoinedRow.single slot n.fields).join
termination_by p.slots.length - slot
decreasing_by
  have := Plan.lt_of_mem_childrenOf ‹_›
  omega

/-- The result of a left join of a forest. -/
def joinedRows (p : Plan) (columns : List String) (roots : List Node) : RowSet where
  columns := columns
  rows := (roots.flatMap (Node.rows p 0)).map (JoinedRow.values p columns)

/-- The rows of the children of a node in a slot. -/
def Node.factor (p : Plan) (n : Node) (c : Nat) : List JoinedRow :=
  orAbsent ((n.children c).flatMap (rows p c))

theorem Node.rows_eq (p : Plan) (slot : Nat) (n : Node) : n.rows p slot =
    (product ((p.childrenOf slot).map (n.factor p))).map
      (JoinedRow.single slot n.fields).join := by
  rw [rows, List.map_subtype (g := n.factor p) fun c h => rfl, List.unattach_attach]

theorem Node.record_eq (p : Plan) (slot : Nat) (n : Node) : n.record p slot =
    { fields := n.fields
      relations := (p.childSlots slot).map fun x =>
        (x.2.2.relation, related x.2.1 ((n.children x.1).map (record p x.1))) } := by
  rw [record, List.map_subtype (g := fun x : Nat × Slot × Branch =>
    (x.2.2.relation, related x.2.1 ((n.children x.1).map (record p x.1))))
    fun x h => rfl, List.unattach_attach]

theorem orAbsent_ne_nil (rows : List JoinedRow) : orAbsent rows ≠ [] := by
  unfold orAbsent
  split_ifs with h
  · simp
  · simpa using h

theorem Node.factor_ne_nil (n : Node) (p : Plan) (c : Nat) : n.factor p c ≠ [] :=
  orAbsent_ne_nil _

theorem mem_orAbsent {rows : List JoinedRow} {row : JoinedRow} (h : row ∈ orAbsent rows) :
    row = .absent ∨ row ∈ rows := by
  unfold orAbsent at h
  split_ifs at h
  · exact Or.inl (List.mem_singleton.mp h)
  · exact Or.inr h

theorem mem_orAbsent_of_mem {rows : List JoinedRow} {row : JoinedRow} (h : row ∈ rows) :
    row ∈ orAbsent rows := by
  rw [orAbsent, if_neg (by simpa using List.ne_nil_of_mem h)]
  exact h

theorem product_ne_nil {factors : List (List JoinedRow)} (h : ∀ rows ∈ factors, rows ≠ []) :
    product factors ≠ [] := by
  induction factors with
  | nil => simp [product]
  | cons rows rest ih =>
    obtain ⟨a, ha⟩ := List.exists_mem_of_ne_nil rows (h rows List.mem_cons_self)
    obtain ⟨b, hb⟩ := List.exists_mem_of_ne_nil _
      (ih fun other hother => h other (List.mem_cons_of_mem rows hother))
    exact List.ne_nil_of_mem (List.mem_flatMap.mpr ⟨a, ha, List.mem_map_of_mem hb⟩)

theorem Node.rows_ne_nil (p : Plan) (slot : Nat) (n : Node) : n.rows p slot ≠ [] := by
  rw [rows_eq]
  simp only [ne_eq, List.map_eq_nil_iff]
  refine product_ne_nil fun rows hrows => ?_
  obtain ⟨c, -, rfl⟩ := List.mem_map.mp hrows
  exact n.factor_ne_nil p c

/-- What holds of all rows of the factors, and of joined rows with them, holds of the product. -/
theorem forall_mem_product {P : JoinedRow → Prop} {factors : List (List JoinedRow)}
    (habsent : P .absent) (hjoin : ∀ a b, P a → P b → P (a.join b))
    (h : ∀ rows ∈ factors, ∀ a ∈ rows, P a) : ∀ row ∈ product factors, P row := by
  induction factors with
  | nil =>
    intro row hrow
    rwa [List.mem_singleton.mp hrow]
  | cons rows rest ih =>
    intro row hrow
    obtain ⟨a, ha, hrow⟩ := List.mem_flatMap.mp hrow
    obtain ⟨b, hb, rfl⟩ := List.mem_map.mp hrow
    exact hjoin a b (h rows List.mem_cons_self a ha)
      (ih (fun other hother => h other (List.mem_cons_of_mem rows hother)) b hb)

section
variable {I : Nat → Prop} {l : List Nat} {f : Nat → List JoinedRow}

theorem product_absent_on (h : ∀ e ∈ l, ∀ a ∈ f e, ∀ i, I i → a i = none) :
    ∀ row ∈ product (l.map f), ∀ i, I i → row i = none := by
  refine forall_mem_product (fun i _ => rfl) (fun a b ha hb i hi => ?_) fun rows hrows => ?_
  · rw [JoinedRow.join, ha i hi, hb i hi, Option.none_or]
  · obtain ⟨e, he, rfl⟩ := List.mem_map.mp hrows
    exact h e he

variable {d : Nat} (hd : d ∈ l) (hl : l.Nodup) (hne : ∀ e ∈ l, f e ≠ [])
  (hother : ∀ e ∈ l, e ≠ d → ∀ a ∈ f e, ∀ i, I i → a i = none)
include hd hl hne hother

/-- Every row of a factor is part of a row of the product, where no other factor has slots of
its own. -/
theorem exists_mem_product {r : JoinedRow} (hr : r ∈ f d) :
    ∃ row ∈ product (l.map f), ∀ i, I i → row i = r i := by
  induction l with
  | nil => simp at hd
  | cons e l ih =>
    obtain ⟨hel, hl⟩ := List.nodup_cons.mp hl
    have hrest : ∀ e ∈ l, f e ≠ [] := fun e he => hne e (List.mem_cons_of_mem _ he)
    by_cases he : e = d
    · have htail : product (l.map f) ≠ [] := product_ne_nil (by simpa using hrest)
      obtain ⟨b, hb⟩ := List.exists_mem_of_ne_nil _ htail
      refine ⟨r.join b, List.mem_flatMap.mpr ⟨r, he ▸ hr, List.mem_map_of_mem hb⟩, fun i hi => ?_⟩
      have hb' := product_absent_on (fun e' he' => hother e' (List.mem_cons_of_mem e he')
        fun h => hel (he ▸ h ▸ he')) b hb i hi
      rw [JoinedRow.join, hb', Option.or_none]
    · obtain ⟨a, ha⟩ := List.exists_mem_of_ne_nil _ (hne e List.mem_cons_self)
      obtain ⟨b, hb, hbr⟩ := ih ((List.mem_cons.mp hd).resolve_left (Ne.symm he)) hl hrest
        fun e' he' => hother e' (List.mem_cons_of_mem e he')
      refine ⟨a.join b, List.mem_flatMap.mpr ⟨a, ha, List.mem_map_of_mem hb⟩, fun i hi => ?_⟩
      rw [JoinedRow.join, hother e List.mem_cons_self he a ha i hi, Option.none_or, hbr i hi]

/-- What a product tells of the slots of one factor is told by that factor. -/
theorem eraseDups_filterMap_product {α : Type} [BEq α] [LawfulBEq α] {h : JoinedRow → Option α}
    (hcongr : ∀ a b : JoinedRow, (∀ i, I i → a i = b i) → h a = h b) :
    ((product (l.map f)).filterMap h).eraseDups = ((f d).filterMap h).eraseDups := by
  induction l with
  | nil => simp at hd
  | cons e l ih =>
    obtain ⟨hel, hl⟩ := List.nodup_cons.mp hl
    have hrest : ∀ e ∈ l, f e ≠ [] := fun e he => hne e (List.mem_cons_of_mem _ he)
    rw [List.map_cons, product, List.filterMap_flatMap]
    simp only [List.filterMap_map]
    by_cases he : e = d
    · have htail : product (l.map f) ≠ [] := product_ne_nil (by simpa using hrest)
      rw [he, List.filterMap_eq_flatMap_toList h (f d)]
      refine eraseDups_flatMap_congr fun a ha => ?_
      have hconst : (product (l.map f)).filterMap (h ∘ a.join) =
          (product (l.map f)).filterMap fun _ => h a := by
        refine List.filterMap_congr fun b hb => hcongr _ _ fun i hi => ?_
        have hb' := product_absent_on (fun e' he' => hother e' (List.mem_cons_of_mem e he')
          fun h => hel (he ▸ h ▸ he')) b hb i hi
        rw [JoinedRow.join, hb', Option.or_none]
      rw [hconst, eraseDups_filterMap_const htail]
      cases h a <;> simp [List.eraseDups_cons]
    · have hconst : ∀ a ∈ f e, (product (l.map f)).filterMap (h ∘ a.join) =
          (product (l.map f)).filterMap h := by
        intro a ha
        refine List.filterMap_congr fun b _ => hcongr _ _ fun i hi => ?_
        rw [JoinedRow.join, hother e List.mem_cons_self he a ha i hi, Option.none_or]
      rw [List.flatMap_congr hconst, eraseDups_flatMap_const (hne e List.mem_cons_self)]
      exact ih ((List.mem_cons.mp hd).resolve_left (Ne.symm he)) hl hrest
        fun e' he' => hother e' (List.mem_cons_of_mem e he')

end

end RelMap.Nested
