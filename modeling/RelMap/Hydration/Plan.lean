import RelMap.Join.Basic
import RelMap.Schema.Registry

/-!
The plan of a hydration: one slot for each table whose records are wanted, and how the slots
hang together. A slot always comes after the one it hangs from.
-/
namespace RelMap

/-- How a slot hangs from another one. -/
structure Branch where
  relation : String
  kind : RelationKind
  /-- The position of the slot that the relation leads from. -/
  parent : Nat

/-- A table whose records are wanted. -/
structure Slot where
  label : String
  model : Model
  /-- The first slot hangs from none. -/
  branch : Option Branch := none
  path : String := ""

def Slot.parent? (s : Slot) : Option Nat := s.branch.map Branch.parent

def Slot.isToMany (s : Slot) : Bool := s.branch.any fun b => b.kind.isToMany

structure Plan where
  slots : List Slot
  parent_lt : ∀ (i : Nat) (slot : Slot) (parent : Nat),
    slots[i]? = some slot → slot.parent? = some parent → parent < i

namespace Plan

/-- The plan of one table. -/
def root (label : String) (model : Model) : Plan where
  slots := [{ label, model }]
  parent_lt i slot parent h hp := by
    cases i with
    | zero => simp at h; subst h; simp [Slot.parent?] at hp
    | succ i => simp at h

theorem parent_lt_of_append (p : Plan) {s : Slot}
    (h : ∀ parent, s.parent? = some parent → parent < p.slots.length) (i : Nat) (slot : Slot)
    (parent : Nat) (hi : (p.slots ++ [s])[i]? = some slot) (hp : slot.parent? = some parent) :
    parent < i := by
  rcases Nat.lt_trichotomy i p.slots.length with hlt | rfl | hgt
  · exact p.parent_lt i slot parent (by simpa [List.getElem?_append_left hlt] using hi) hp
  · simp at hi; subst hi; exact h parent hp
  · rw [List.getElem?_eq_none (by simp; omega)] at hi; simp at hi

/-- A plan with one more slot, which hangs from an earlier one if from any. -/
def add (p : Plan) (s : Slot) (h : ∀ parent, s.parent? = some parent → parent < p.slots.length) :
    Plan where
  slots := p.slots ++ [s]
  parent_lt := p.parent_lt_of_append h

/-- Adds the slot of a join; the table between two models has none. -/
def addJoin (registry : Registry) (p : Plan) (j : Join) : Except Error Plan :=
  match j.model, j.relation with
  | some name, some relation =>
    match h : p.slots.findIdx? fun s => s.label = j.parent with
    | none => .error (.hydration (.unknownParent j.path j.parent))
    | some parent =>
      match registry.model name with
      | .error e => .error e
      | .ok model =>
        .ok (p.add
          ⟨j.label, model, some ⟨j.relationName, relation.kind, parent⟩, j.path⟩
          (by
            intro q hq
            simp [Slot.parent?] at hq
            subst hq
            exact (List.findIdx?_eq_some_iff_getElem.1 h).1))
  | _, _ => .ok p

/-- The plan of the joins of a statement on a model. -/
def ofJoins (registry : Registry) (model label : String) (joins : List Join) :
    Except Error Plan := do
  joins.foldlM (addJoin registry) (root label (← registry.model model))

/-- The positions of the slots that hang from the one at `i`. -/
def childrenOf (p : Plan) (i : Nat) : List Nat :=
  (List.range p.slots.length).filter fun j => (p.slots[j]?.bind Slot.parent?) = some i

/-- Places a slot behind others, unless it is there already or hangs from one that is not. -/
def place (placed : List Nat) (slot : Slot × Nat) : List Nat :=
  if slot.2 ∈ placed then placed
  else if slot.1.parent?.all (· ∈ placed) then placed ++ [slot.2]
  else placed

/-- Goes through the slots once. -/
def placeAll (p : Plan) (placed : List Nat) : List Nat := p.slots.zipIdx.foldl place placed

/-- Goes through the slots again and again, until all are placed or none is added. -/
def orderFrom (p : Plan) (placed : List Nat) : List Nat :=
  if placed.length < p.slots.length then
    if placed.length < (p.placeAll placed).length then orderFrom p (p.placeAll placed)
    else p.placeAll placed
  else placed
termination_by p.slots.length - placed.length

/-- The positions of the slots, each after the one it hangs from. -/
def order (p : Plan) : List Nat := p.orderFrom []

/-- The model of the slot at a position. -/
def model? (p : Plan) (i : Nat) : Option Model := p.slots[i]?.map Slot.model

theorem lt_of_mem_childrenOf {p : Plan} {i j : Nat} (h : j ∈ p.childrenOf i) :
    i < j ∧ j < p.slots.length := by
  simp only [childrenOf, List.mem_filter, List.mem_range, decide_eq_true_eq] at h
  obtain ⟨hj, hp⟩ := h
  rw [List.getElem?_eq_getElem hj, Option.bind_some] at hp
  exact ⟨p.parent_lt j _ i (List.getElem?_eq_getElem hj) hp, hj⟩

end Plan
end RelMap
