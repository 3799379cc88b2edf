import RelMap.Hydration
import RelMap.Proofs.Condition.Evaluation
import RelMap.Proofs.Hydration.Flat

/-! What a hydration can end with. Once there is a plan, and one whose slots all hang from the
first if no include is nested, only the filters of the includes are left to fail. -/
namespace RelMap

theorem Includes.FilterError.kinds [Regex.Engine] {includes : Includes} {e : Error}
    (h : includes.FilterError e) : (∃ sql, e = .hydration (.rawCondition sql)) ∨
      ∃ pattern reason, e = .hydration (.invalidPattern pattern reason) := by
  obtain ⟨path, i, condition, r, -, -, he⟩ := h
  exact Condition.evaluate_eq_error_kinds he

theorem RowSet.mapRows_failsOnly {P : Error → Prop} {α : Type} {rows : RowSet}
    {f : Row → Except Error α} (hwidth : ∀ values ∈ rows.rows, values.length = rows.columns.length)
    (hf : ∀ row, FailsOnly P (f row)) : FailsOnly P (rows.mapRows f) := by
  refine .mapM fun values hvalues => ?_
  rw [Row.ofValues, dif_pos (hwidth values hvalues), ok_bind]
  exact hf _

section
variable {P : Error → Prop} {rows : RowSet}
  (hwidth : ∀ values ∈ rows.rows, values.length = rows.columns.length)
include hwidth

theorem hydratePlain_failsOnly {registry : Registry} {model : String} {m : Model}
    (hm : registry.model model = .ok m) : FailsOnly P (hydratePlain registry model rows) := by
  refine RowSet.mapRows_failsOnly hwidth fun row => ?_
  refine FailsOnly.bind (.mapM fun cell _ => ?_) fun fields => .ok _
  refine FailsOnly.bind ?_ fun field => .ok _
  unfold Registry.columnToField
  rw [hm]
  exact .ok _

theorem Flat.scan_failsOnly [Regex.Engine] {p : Plan} (includes : Includes)
    (hcheck : check p = .ok ()) :
    FailsOnly includes.FilterError (scan p includes rows) := by
  rw [scan, scanKeeping, hcheck, ok_bind]
  dsimp only
  rw [RowSet.mapRows_ok hwidth, ok_bind]
  refine .mapM fun entry _ => .foldlM (fun r slot _ => ?_) entry.2.record
  dsimp only
  cases slot.1.branch with
  | none => exact .ok r
  | some b => exact (includes.apply_failsOnly _ _ _).bind fun related => .ok _

theorem Nested.scan_failsOnly [Regex.Engine] {p : Plan} (hrooted : p.Rooted) (includes : Includes) :
    FailsOnly includes.FilterError (scan p includes rows) := by
  rw [scan_eq_view hrooted includes hwidth]
  exact .mapM fun key _ => view_failsOnly p includes (partsOf p rows) 0 key

end

end RelMap
