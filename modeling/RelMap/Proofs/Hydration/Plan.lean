import Mathlib.Data.List.Induction
import RelMap.Hydration.Plan
import RelMap.Proofs.Join.Follow
import RelMap.Proofs.Pointwise

/-! Plans of joins. The slots of a plan are the table of the statement and the joined tables of
models, and hang together as the paths of these joins do. -/
namespace RelMap

/-- A join of a table whose records are wanted. -/
def Join.isHydrated (j : Join) : Bool := j.model.isSome && j.relation.isSome

theorem Join.isJunction_of_isHydrated {j : Join} (h : j.isHydrated = true) :
    j.isJunction = false := by
  simp only [isHydrated, Bool.and_eq_true] at h
  simp [isJunction, h.1]

/-- The slot of a join. -/
structure Slot.Realizes (registry : Registry) (j : Join) (s : Slot) : Prop where
  label_eq : s.label = j.label
  path_eq : s.path = j.path
  model_eq : ∃ name, j.model = some name ∧ registry.model name = .ok s.model

theorem Slot.Realizes.isJunction_eq {registry : Registry} {j : Join} {s : Slot}
    (h : s.Realizes registry j) : j.isJunction = false := by
  obtain ⟨name, hname, -⟩ := h.model_eq
  simp [Join.isJunction, hname]

namespace Plan

/-- How the slot at a position hangs from another one. -/
def branchOf? (p : Plan) (i : Nat) : Option Branch := p.slots[i]?.bind Slot.branch

/-- The position of the slot that a slot hangs from. -/
def parentOf? (p : Plan) (i : Nat) : Option Nat := (p.branchOf? i).map Branch.parent

theorem parentOf?_eq (p : Plan) (i : Nat) : p.slots[i]?.bind Slot.parent? = p.parentOf? i := by
  rw [parentOf?, branchOf?, Option.map_bind]
  rfl

theorem parentOf?_of_getElem? {p : Plan} {i : Nat} {slot : Slot} (h : p.slots[i]? = some slot) :
    p.parentOf? i = slot.parent? := by
  rw [← parentOf?_eq, h, Option.bind_some]

theorem lt_of_getElem? {p : Plan} {i : Nat} {slot : Slot} (h : p.slots[i]? = some slot) :
    i < p.slots.length :=
  (List.getElem?_eq_some_iff.mp h).1

theorem parentOf?_lt {p : Plan} {i parent : Nat} (h : p.parentOf? i = some parent) :
    parent < i := by
  rw [← parentOf?_eq] at h
  obtain ⟨s, hs, hp⟩ := Option.bind_eq_some_iff.mp h
  exact p.parent_lt i s parent hs hp

/-- The slots that hang from a slot, with their positions and branches. -/
def childSlots (p : Plan) (i : Nat) : List (Nat × Slot × Branch) :=
  (p.childrenOf i).filterMap fun j => p.slots[j]?.bind fun s => s.branch.map fun b => (j, s, b)

theorem mem_childrenOf {p : Plan} {i j : Nat} : j ∈ p.childrenOf i ↔ p.parentOf? j = some i := by
  rw [← parentOf?_eq, childrenOf, List.mem_filter, List.mem_range, decide_eq_true_eq,
    and_iff_right_iff_imp]
  intro h
  obtain ⟨s, hs, -⟩ := Option.bind_eq_some_iff.mp h
  exact (List.getElem?_eq_some_iff.mp hs).1

theorem of_mem_childSlots {p : Plan} {i j : Nat} {s : Slot} {b : Branch}
    (h : (j, s, b) ∈ p.childSlots i) :
    j ∈ p.childrenOf i ∧ p.slots[j]? = some s ∧ s.branch = some b := by
  obtain ⟨k, hk, h⟩ := List.mem_filterMap.mp h
  simp only [Option.bind_eq_some_iff, Option.map_eq_some_iff, Prod.mk.injEq] at h
  obtain ⟨_, hs, _, hb, rfl, rfl, rfl⟩ := h
  exact ⟨hk, hs, hb⟩

/-- A slot and the slots above it. -/
def lineage (p : Plan) (i : Nat) : List Nat :=
  i :: match _h : p.parentOf? i with
    | none => []
    | some parent => p.lineage parent
termination_by i
decreasing_by exact parentOf?_lt _h

theorem lineage_eq (p : Plan) (i : Nat) :
    p.lineage i = i :: ((p.parentOf? i).map p.lineage).getD [] := by
  rw [lineage]
  split <;> next h => simp [h]

section
variable {p : Plan} {a b i : Nat}

theorem self_mem_lineage (p : Plan) (i : Nat) : i ∈ p.lineage i := by
  rw [lineage_eq]
  exact List.mem_cons_self

theorem mem_lineage_of_parent {parent : Nat} (h : p.parentOf? i = some parent) :
    a ∈ p.lineage i ↔ a = i ∨ a ∈ p.lineage parent := by
  rw [lineage_eq, h, Option.map_some, Option.getD_some, List.mem_cons]

theorem mem_lineage_of_root (h : p.parentOf? i = none) : a ∈ p.lineage i ↔ a = i := by
  rw [lineage_eq, h, Option.map_none, Option.getD_none, List.mem_singleton]

theorem le_of_mem_lineage (h : a ∈ p.lineage i) : a ≤ i := by
  induction i using Nat.strongRecOn with
  | ind i ih =>
    cases hp : p.parentOf? i with
    | none => exact Nat.le_of_eq ((mem_lineage_of_root hp).mp h)
    | some parent =>
      have hlt := parentOf?_lt hp
      rcases (mem_lineage_of_parent hp).mp h with rfl | h
      · exact Nat.le_refl a
      · exact Nat.le_trans (ih parent hlt h) (Nat.le_of_lt hlt)

theorem mem_lineage_trans (ha : a ∈ p.lineage b) (hb : b ∈ p.lineage i) : a ∈ p.lineage i := by
  induction i using Nat.strongRecOn with
  | ind i ih =>
    cases hp : p.parentOf? i with
    | none => rwa [(mem_lineage_of_root hp).mp hb] at ha
    | some parent =>
      rcases (mem_lineage_of_parent hp).mp hb with rfl | hb
      · exact ha
      · exact (mem_lineage_of_parent hp).mpr (Or.inr (ih parent (parentOf?_lt hp) hb))

/-- Of two slots above the same one, one is above the other. -/
theorem lineage_chain (ha : a ∈ p.lineage i) (hb : b ∈ p.lineage i) :
    a ∈ p.lineage b ∨ b ∈ p.lineage a := by
  induction i using Nat.strongRecOn with
  | ind i ih =>
    cases hp : p.parentOf? i with
    | none =>
      rw [(mem_lineage_of_root hp).mp ha, (mem_lineage_of_root hp).mp hb]
      exact Or.inl (p.self_mem_lineage i)
    | some parent =>
      rcases (mem_lineage_of_parent hp).mp ha with rfl | ha'
      · exact Or.inr hb
      · rcases (mem_lineage_of_parent hp).mp hb with rfl | hb'
        · exact Or.inl ha
        · exact ih parent (parentOf?_lt hp) ha' hb'

theorem eq_of_mem_lineage {parent : Nat} (hpa : p.parentOf? a = some parent)
    (hpb : p.parentOf? b = some parent) (ha : a ∈ p.lineage i) (hb : b ∈ p.lineage i) :
    a = b := by
  have hself : ∀ {c d}, p.parentOf? c = some parent → p.parentOf? d = some parent →
      c ∈ p.lineage d → c = d := by
    intro c d hc hd h
    rcases (mem_lineage_of_parent hd).mp h with he | h
    · exact he
    · have := parentOf?_lt hc
      have := le_of_mem_lineage h
      omega
  rcases lineage_chain ha hb with h | h
  · exact hself hpa hpb h
  · exact (hself hpb hpa h).symm

theorem exists_child_of_mem_lineage (ha : a ∈ p.lineage i) (hne : a ≠ i) :
    ∃ c ∈ p.childrenOf a, c ∈ p.lineage i := by
  induction i using Nat.strongRecOn with
  | ind i ih =>
    cases hp : p.parentOf? i with
    | none => exact absurd ((mem_lineage_of_root hp).mp ha) hne
    | some parent =>
      have ha' := ((mem_lineage_of_parent hp).mp ha).resolve_left hne
      by_cases he : a = parent
      · exact ⟨i, mem_childrenOf.mpr (he ▸ hp), p.self_mem_lineage i⟩
      · obtain ⟨c, hc, hci⟩ := ih parent (parentOf?_lt hp) ha' he
        exact ⟨c, hc, (mem_lineage_of_parent hp).mpr (Or.inr hci)⟩

end

/-- A plan in which all slots hang from the first one, and slots that hang from the same slot do
so by relations of different names. -/
structure Rooted (p : Plan) : Prop where
  length_pos : 0 < p.slots.length
  parentOf?_eq_none_iff : ∀ i < p.slots.length, p.parentOf? i = none ↔ i = 0
  relation_inj : ∀ i j b c, p.branchOf? i = some b → p.branchOf? j = some c →
    b.parent = c.parent → b.relation = c.relation → i = j

/-- The plan of the joins of a statement on a model. The path of a slot is that of its parent and
its relation; below the first slot it is the relation alone. -/
structure Of (registry : Registry) (model label : String) (joins : List Join) (p : Plan) :
    Prop where
  root : ∃ s, p.slots.head? = some s ∧ registry.model model = .ok s.model ∧ s.label = label ∧
    s.branch = none
  joined : List.Forall₂ (fun j s => s.Realizes registry j) (joins.filter Join.isHydrated)
    p.slots.tail
  path_eq : ∀ s ∈ p.slots.tail, ∃ b parent, s.branch = some b ∧
    p.slots[b.parent]? = some parent ∧
    s.path = if b.parent = 0 then b.relation else parent.path ++ "." ++ b.relation

theorem Rooted.childSlots_relation_nodup {p : Plan} (hp : p.Rooted) (i : Nat) :
    ((p.childSlots i).map fun x => x.2.2.relation).Nodup := by
  have hpositions : (p.childrenOf i).Nodup := List.nodup_range.filter _
  have hbranch : ∀ j ∈ p.childrenOf i, ∀ x, (p.slots[j]?.bind fun s =>
      s.branch.map fun b => (j, s, b)) = some x →
      p.branchOf? j = some x.2.2 ∧ x.2.2.parent = i := by
    intro j hj x hx
    simp only [Option.bind_eq_some_iff, Option.map_eq_some_iff] at hx
    obtain ⟨s, hs, b, hb, rfl⟩ := hx
    have hjb : p.branchOf? j = some b := by rw [branchOf?, hs, Option.bind_some, hb]
    have hparent := mem_childrenOf.mp hj
    rw [parentOf?, hjb, Option.map_some] at hparent
    exact ⟨hjb, Option.some.inj hparent⟩
  refine List.pairwise_map.mpr (List.pairwise_filterMap.mpr (hpositions.imp_of_mem ?_))
  intro j k hj hk hjk x hx y hy he
  obtain ⟨hxb, hxp⟩ := hbranch j hj x hx
  obtain ⟨hyb, hyp⟩ := hbranch k hk y hy
  exact hjk (hp.relation_inj j k _ _ hxb hyb (hxp.trans hyp.symm) he)

theorem addJoin_of_not_hydrated {registry : Registry} {p : Plan} {j : Join}
    (h : j.isHydrated = false) : addJoin registry p j = .ok p := by
  unfold addJoin
  split
  · next name relation hname hrelation => simp [Join.isHydrated, hname, hrelation] at h
  · rfl

theorem addJoin_eq_ok {registry : Registry} {p q : Plan} {j : Join} (hj : j.isHydrated = true)
    (h : addJoin registry p j = .ok q) : ∃ s b parent, q.slots = p.slots ++ [s] ∧
      s.Realizes registry j ∧ s.branch = some b ∧ b.relation = j.relationName ∧
      p.slots[b.parent]? = some parent ∧ parent.label = j.parent := by
  unfold addJoin at h
  split at h
  · next name relation hname hrelation =>
    split at h
    · simp at h
    · next k hk =>
      split at h
      · simp at h
      · next model hmodel =>
        obtain ⟨hlt, hlabel, -⟩ := List.findIdx?_eq_some_iff_getElem.mp hk
        obtain rfl := Except.ok.inj h
        exact ⟨_, _, p.slots[k], rfl, ⟨rfl, rfl, name, hname, hmodel⟩, rfl, rfl,
          List.getElem?_eq_getElem hlt, by simpa using hlabel⟩
  · next hnot =>
    obtain ⟨hname, hrelation⟩ : j.model.isSome ∧ j.relation.isSome := by
      simpa [Join.isHydrated] using hj
    obtain ⟨name, hname⟩ := Option.isSome_iff_exists.mp hname
    obtain ⟨relation, hrelation⟩ := Option.isSome_iff_exists.mp hrelation
    exact absurd hrelation (hnot name relation hname)

theorem Of.start {registry : Registry} {model label : String} {m : Model}
    (hm : registry.model model = .ok m) : (Plan.root label m).Of registry model label [] where
  root := ⟨_, rfl, hm, rfl, rfl⟩
  joined := List.Forall₂.nil
  path_eq := by simp [Plan.root]

namespace Of

variable {registry : Registry} {model label : String} {joins : List Join} {p q : Plan}
  (h : p.Of registry model label joins)
include h

theorem exists_cons : ∃ first rest, p.slots = first :: rest ∧
    registry.model model = .ok first.model ∧ first.label = label ∧ first.branch = none := by
  obtain ⟨first, hfirst, hroot⟩ := h.root
  exact ⟨first, p.slots.tail, (List.cons_head?_tail hfirst).symm, hroot⟩

/-- A slot is that of the table of the statement or a later one. -/
theorem root_or_mem_tail {s : Slot} (hs : s ∈ p.slots) :
    (registry.model model = .ok s.model ∧ s.label = label) ∨ s ∈ p.slots.tail := by
  obtain ⟨first, rest, hcons, hfirst, hlabel, -⟩ := h.exists_cons
  rw [hcons] at hs ⊢
  rcases List.mem_cons.mp hs with rfl | hs
  · exact Or.inl ⟨hfirst, hlabel⟩
  · exact Or.inr hs

theorem exists_join {s : Slot} (hs : s ∈ p.slots.tail) : ∃ j ∈ joins, s.Realizes registry j := by
  obtain ⟨j, hj, hr⟩ := exists_left_of_forall₂ h.joined hs
  exact ⟨j, List.mem_of_mem_filter hj, hr⟩

theorem exists_model {s : Slot} (hs : s ∈ p.slots) :
    ∃ name, registry.model name = .ok s.model := by
  rcases h.root_or_mem_tail hs with ⟨hm, -⟩ | hs
  · exact ⟨model, hm⟩
  · obtain ⟨j, -, hrealizes⟩ := h.exists_join hs
    obtain ⟨name, -, hm⟩ := hrealizes.model_eq
    exact ⟨name, hm⟩

/-- A join whose path continues that of the join it leads from adds a slot of this path. -/
theorem addJoin {j : Join} (hlast : ∀ a ∈ joins, a.Precedes j)
    (hroot : j.isJunction = false → j.parent = label → j.path = j.relationName)
    (hq : Plan.addJoin registry p j = .ok q) : q.Of registry model label (joins ++ [j]) := by
  cases hj : j.isHydrated with
  | false =>
    obtain rfl := Except.ok.inj ((addJoin_of_not_hydrated hj).symm.trans hq)
    refine ⟨h.root, ?_, h.path_eq⟩
    rw [List.filter_append, List.filter_cons_of_neg (by simp [hj]), List.filter_nil,
      List.append_nil]
    exact h.joined
  | true =>
    obtain ⟨s, b, parent, hslots, hs, hb, hrelation, hparent, hlabel⟩ := addJoin_eq_ok hj hq
    obtain ⟨first, rest, hcons, hfirst, hfirstLabel, hfirstBranch⟩ := h.exists_cons
    have htail : q.slots.tail = p.slots.tail ++ [s] := by rw [hslots, hcons]; rfl
    have hkept : ∀ (i : Nat) t, p.slots[i]? = some t → q.slots[i]? = some t := by
      intro i t ht
      rw [hslots, List.getElem?_append_left (List.getElem?_eq_some_iff.mp ht).1, ht]
    refine ⟨⟨first, by rw [hslots, hcons]; rfl, hfirst, hfirstLabel, hfirstBranch⟩, ?_, ?_⟩
    · rw [List.filter_append, List.filter_cons_of_pos hj, List.filter_nil, htail]
      exact List.rel_append h.joined (List.Forall₂.cons hs List.Forall₂.nil)
    · intro t ht
      rw [htail] at ht
      rcases List.mem_append.mp ht with ht | ht
      · obtain ⟨c, up, hc, hup, hpath⟩ := h.path_eq t ht
        exact ⟨c, up, hc, hkept _ _ hup, hpath⟩
      · obtain rfl := List.mem_singleton.mp ht
        refine ⟨b, parent, hb, hkept _ _ hparent, ?_⟩
        rw [hs.path_eq, hrelation]
        split_ifs with hzero
        · refine hroot hs.isJunction_eq ?_
          rw [hzero, hcons] at hparent
          rw [← hlabel, ← hfirstLabel, Option.some.inj hparent]
        · obtain ⟨k, hk⟩ := Nat.exists_eq_succ_of_ne_zero hzero
          have hmem : parent ∈ p.slots.tail := by
            rw [hk, hcons] at hparent
            rw [hcons]
            exact List.mem_of_getElem? hparent
          obtain ⟨a, ha, hrealizes⟩ := h.exists_join hmem
          rw [hrealizes.path_eq]
          exact (hlast a ha).path_eq hrealizes.isJunction_eq hs.isJunction_eq
            (hrealizes.label_eq.symm.trans hlabel)

theorem labels_eq : p.slots.map Slot.label =
    label :: (joins.filter Join.isHydrated).map Join.label := by
  obtain ⟨first, rest, hcons, -, hlabel, -⟩ := h.exists_cons
  have hjoined := h.joined
  rw [hcons] at hjoined ⊢
  rw [List.map_cons, hlabel, map_eq_of_forall₂ hjoined fun _ _ _ hs => hs.label_eq.symm]
  rfl

theorem paths_eq : p.slots.tail.map Slot.path =
    (joins.filter Join.isHydrated).map Join.path :=
  (map_eq_of_forall₂ h.joined fun _ _ _ hs => hs.path_eq.symm).symm

theorem exists_slot {i : Nat} {b : Branch} (hb : p.branchOf? i = some b) :
    ∃ j s, i = j + 1 ∧ p.slots.tail[j]? = some s ∧ s.branch = some b := by
  obtain ⟨first, rest, hcons, -, -, hfirst⟩ := h.exists_cons
  obtain ⟨s, hs, hbranch⟩ := Option.bind_eq_some_iff.mp hb
  rw [hcons] at hs ⊢
  cases i with
  | zero =>
    obtain rfl := Option.some.inj hs
    simp [hfirst] at hbranch
  | succ j => exact ⟨j, s, rfl, hs, hbranch⟩

theorem path_eq_of_branch {s : Slot} {b : Branch} (hs : s ∈ p.slots.tail)
    (hb : s.branch = some b) : ∃ parent, p.slots[b.parent]? = some parent ∧
      s.path = if b.parent = 0 then b.relation else parent.path ++ "." ++ b.relation := by
  obtain ⟨b', parent, hb', hparent⟩ := h.path_eq s hs
  obtain rfl := Option.some.inj (hb.symm.trans hb')
  exact ⟨parent, hparent⟩

theorem rooted (hprecedes : joins.Pairwise Join.Precedes) : p.Rooted := by
  obtain ⟨first, rest, hcons, -, -, hfirst⟩ := h.exists_cons
  have hnodup : (p.slots.tail.map Slot.path).Nodup := by
    rw [h.paths_eq]
    refine List.pairwise_map.mpr ((hprecedes.filter _).imp_of_mem fun ha hb hab => ?_)
    exact hab.path_ne (Join.isJunction_of_isHydrated (List.of_mem_filter ha))
      (Join.isJunction_of_isHydrated (List.of_mem_filter hb))
  refine ⟨by rw [hcons]; exact Nat.succ_pos _, fun i hi => ?_, fun i j b c hb hc hp hr => ?_⟩
  · rw [parentOf?, Option.map_eq_none_iff]
    cases i with
    | zero => simp [branchOf?, hcons, hfirst]
    | succ i =>
      have hmem : p.slots[i + 1] ∈ p.slots.tail := by
        simp only [hcons, List.getElem_cons_succ, List.tail_cons, List.getElem_mem]
      obtain ⟨b, -, hb, -⟩ := h.path_eq _ hmem
      simp [branchOf?, List.getElem?_eq_getElem hi, hb]
  · obtain ⟨k, s, rfl, hs, hsb⟩ := h.exists_slot hb
    obtain ⟨l, t, rfl, ht, htc⟩ := h.exists_slot hc
    obtain ⟨up, hup, hspath⟩ := h.path_eq_of_branch (List.mem_of_getElem? hs) hsb
    obtain ⟨up', hup', htpath⟩ := h.path_eq_of_branch (List.mem_of_getElem? ht) htc
    rw [← hp, hup] at hup'
    obtain rfl := Option.some.inj hup'
    rw [← hp, ← hr, ← hspath] at htpath
    have hlt : k < (p.slots.tail.map Slot.path).length := by
      rw [List.length_map]
      exact (List.getElem?_eq_some_iff.mp hs).1
    have hkl : k = l := by
      refine (List.getElem?_inj hlt hnodup).mp ?_
      rw [List.getElem?_map, List.getElem?_map, hs, ht, Option.map_some, Option.map_some, htpath]
    rw [hkl]

end Of

theorem ofJoins_of {registry : Registry} {model label : String} {joins : List Join} {p : Plan}
    (hprecedes : joins.Pairwise Join.Precedes)
    (hroot : ∀ j ∈ joins, j.isJunction = false → j.parent = label → j.path = j.relationName)
    (h : ofJoins registry model label joins = .ok p) : p.Of registry model label joins := by
  obtain ⟨m, hm, hp⟩ := bind_eq_ok.mp h
  clear h
  induction joins using List.reverseRecOn generalizing p with
  | nil =>
    obtain rfl : Plan.root label m = p := by simpa [pure_eq_ok] using hp
    exact Of.start hm
  | append_singleton joins j ih =>
    obtain ⟨q, hq, hj⟩ := foldlM_concat_eq_ok.mp hp
    obtain ⟨hpairwise, -, hlast⟩ := List.pairwise_append.mp hprecedes
    have hof := ih hpairwise (fun a ha => hroot a (List.mem_append_left _ ha)) hq
    exact hof.addJoin (fun a ha => hlast a ha j (List.mem_singleton_self j))
      (hroot j (List.mem_append_right _ (List.mem_singleton_self j))) hj

theorem exists_addJoin {registry : Registry} {p : Plan} {j : Join}
    (hparent : j.isHydrated = true → j.parent ∈ p.slots.map Slot.label)
    (hmodel : j.isHydrated = true →
      ∃ name target, j.model = some name ∧ registry.model name = .ok target) :
    ∃ q, addJoin registry p j = .ok q := by
  cases hj : j.isHydrated with
  | false => exact ⟨p, addJoin_of_not_hydrated hj⟩
  | true =>
    obtain ⟨name, target, hname, htarget⟩ := hmodel hj
    obtain ⟨s, hs, hlabel⟩ := List.mem_map.mp (hparent hj)
    unfold addJoin
    split
    · next name' relation hname' _ =>
      obtain rfl := Option.some.inj (hname.symm.trans hname')
      split
      · next hnone => simpa [hlabel] using List.findIdx?_eq_none_iff.mp hnone s hs
      · split
        · next e he => simp [htarget] at he
        · exact ⟨_, rfl⟩
    · exact ⟨p, rfl⟩

/-- There is a plan for joins that each lead from the root or an earlier join to a registered
model. -/
theorem exists_ofJoins {registry : Registry} {model label : String} {joins : List Join} {m : Model}
    (hm : registry.model model = .ok m) (hprecedes : joins.Pairwise Join.Precedes)
    (hroot : ∀ j ∈ joins, j.isJunction = false → j.parent = label → j.path = j.relationName)
    (hlook : Join.AllLookBack label joins)
    (hmodels : ∀ j ∈ joins, j.isJunction = false → j.isHydrated = true ∧
      ∃ name target, j.model = some name ∧ registry.model name = .ok target) :
    ∃ p, ofJoins registry model label joins = .ok p := by
  induction joins using List.reverseRecOn with
  | nil => exact ⟨Plan.root label m, bind_eq_ok.mpr ⟨m, hm, rfl⟩⟩
  | append_singleton joins j ih =>
    have hinit : ∀ a ∈ joins, a ∈ joins ++ [j] := fun a ha => List.mem_append_left _ ha
    have hlast : j ∈ joins ++ [j] := List.mem_append_right _ (List.mem_singleton_self j)
    have hpairwise := (List.pairwise_append.mp hprecedes).1
    have hroot' := fun a ha => hroot a (hinit a ha)
    obtain ⟨p, hp⟩ := ih hpairwise hroot'
      (fun before a after he => hlook before a (after ++ [j]) (by rw [he]; simp))
      fun a ha => hmodels a (hinit a ha)
    have hof := ofJoins_of hpairwise hroot' hp
    have hparent : j.isHydrated = true → j.parent ∈ p.slots.map Slot.label := by
      intro hj
      rw [hof.labels_eq]
      rcases (hlook joins j [] rfl).parent with he | ⟨a, ha, hajunction, he⟩
      · rw [he]
        exact List.mem_cons_self
      · rw [← he]
        refine List.mem_cons_of_mem _ (List.mem_map_of_mem (List.mem_filter.mpr ⟨ha, ?_⟩))
        exact (hmodels a (hinit a ha) hajunction).1
    obtain ⟨q, hq⟩ := exists_addJoin hparent fun hj =>
      (hmodels j hlast (Join.isJunction_of_isHydrated hj)).2
    obtain ⟨m', hm', hfold⟩ := bind_eq_ok.mp hp
    exact ⟨q, bind_eq_ok.mpr ⟨m', hm', foldlM_concat_eq_ok.mpr ⟨p, hfold, hq⟩⟩⟩

/-- A slot that hangs from the slot with the label from which a join leads. -/
def HangsAs (p : Plan) (j : Join) (s : Slot) : Prop :=
  ∃ b parent, s.branch = some b ∧ p.slots[b.parent]? = some parent ∧ parent.label = j.parent

/-- Every slot of a plan but the first one hangs from the table that its join leads from. -/
theorem ofJoins_hangsAs {registry : Registry} {model label : String} {joins : List Join}
    {p : Plan} (h : ofJoins registry model label joins = .ok p) :
    ∃ first rest, p.slots = first :: rest ∧ first.path = "" ∧ first.branch = none ∧
      List.Forall₂ p.HangsAs (joins.filter Join.isHydrated) rest := by
  obtain ⟨m, hm, hp⟩ := bind_eq_ok.mp h
  clear h
  induction joins using List.reverseRecOn generalizing p with
  | nil =>
    obtain rfl : Plan.root label m = p := by simpa [pure_eq_ok] using hp
    exact ⟨_, [], rfl, rfl, rfl, .nil⟩
  | append_singleton joins j ih =>
    obtain ⟨q, hq, hj⟩ := foldlM_concat_eq_ok.mp hp
    obtain ⟨first, rest, hslots, hpath, hbranch, hrest⟩ := ih hq
    rw [List.filter_append]
    cases hhydrated : j.isHydrated with
    | false =>
      obtain rfl := Except.ok.inj ((addJoin_of_not_hydrated hhydrated).symm.trans hj)
      rw [List.filter_cons_of_neg (by simp [hhydrated]), List.filter_nil, List.append_nil]
      exact ⟨first, rest, hslots, hpath, hbranch, hrest⟩
    | true =>
      obtain ⟨s, b, parent, hadded, -, hb, -, hparent, hlabel⟩ := addJoin_eq_ok hhydrated hj
      have hkept : ∀ (i : Nat) t, q.slots[i]? = some t → p.slots[i]? = some t := by
        intro i t ht
        rw [hadded, List.getElem?_append_left (List.getElem?_eq_some_iff.mp ht).1, ht]
      have hold : ∀ a t, q.HangsAs a t → p.HangsAs a t := by
        rintro a t ⟨c, up, hc, hup, hlabel⟩
        exact ⟨c, up, hc, hkept _ _ hup, hlabel⟩
      rw [List.filter_cons_of_pos hhydrated, List.filter_nil]
      refine ⟨first, rest ++ [s], by rw [hadded, hslots, List.cons_append], hpath, hbranch, ?_⟩
      exact List.rel_append (hrest.imp hold)
        (.cons ⟨b, parent, hb, hkept _ _ hparent, hlabel⟩ .nil)

/-- The slots of a plan for the joins of any run of a planner hang together as its paths do. -/
theorem ofJoins_rooted {registry : Registry} {model label : String}
    {calls : List Planner.Call} {p : Plan}
    (h : ofJoins registry model label ((Planner.start registry label).run calls).joins = .ok p) :
    p.Rooted := by
  have hc := Planner.run_start_consistent registry label calls
  exact (ofJoins_of hc.precedes hc.root_path h).rooted hc.precedes

end Plan
end RelMap
