import RelMap.Proofs.Numeric.Binary64
import RelMap.Proofs.Value.Order

/-!
Families of values that are ordered together. Within a family the order is that of lists of numbers,
and values that are not comparable are all in one place.
-/
namespace RelMap

inductive Family where
  | scalar (kind : ScalarKind)
  /-- Truth values and integers. -/
  | whole
  /-- Floating-point numbers, and the integers among them. -/
  | numeric
  /-- What is comparable with nothing that is not equal to it. -/
  | unordered
  deriving Inhabited

namespace Family

inductive Holds : Family → Value → Prop where
  | scalar {kind : ScalarKind} {value : Value} (h : value.scalarKind? = some kind) :
      Holds (.scalar kind) value
  | bool (b : Bool) : Holds .whole (.bool b)
  | int (n : Int) : Holds .whole (.int n)
  | float {x : Binary64} (h : x.isNaN = false) : Holds .numeric (.float x)
  | exact {n : Int} (h : Binary64.IsExact n) : Holds .numeric (.int n)
  | notANumber {x : Binary64} (h : x.isNaN = true) : Holds .unordered (.float x)
  | json (j : Json) : Holds .unordered (.json j)
  | list (values : List Value) : Holds .unordered (.list values)

theorem holds_scalar_iff {kind : ScalarKind} {value : Value} :
    (scalar kind).Holds value ↔ value.scalarKind? = some kind :=
  ⟨fun h => by cases h; assumption, .scalar⟩

/-- The numbers by which the values of a family are ordered. -/
def key : Family → Value → List Int
  | .numeric, .int n => [(Binary64.ofInt n).rank]
  | .unordered, _ => []
  | _, value => value.sortKey

/-- The order of the values of a family is that of their numbers. -/
theorem compare_key {family : Family} {a b : Value} (ha : family.Holds a) (hb : family.Holds b) :
    (a.compare? b).getD .eq = compare (family.key a) (family.key b) := by
  cases ha <;> cases hb <;> simp only [key, Value.sortKey, Value.compare_singleton]
  case scalar.scalar kind ha hb => rw [Value.compare?_of_scalarKind ha hb]; rfl
  case bool.bool b c => revert b c; decide
  case float.float x hx y hy => exact congrArg (·.getD .eq) (Binary64.compare?_of_numbers hx hy)
  case float.exact x hx n hn =>
    exact congrArg (·.getD .eq) (Binary64.compare?_of_numbers hx (Binary64.isNaN_ofInt hn))
  case exact.float n hn x hx =>
    exact congrArg (·.getD .eq) (Binary64.compare?_of_numbers (Binary64.isNaN_ofInt hn) hx)
  case exact.exact m hm n hn => exact (Binary64.compare_rank_ofInt hn hm).symm
  case notANumber.notANumber x hx y hy => simp [Value.compare?, Binary64.compare?, hx]
  case json.json j k =>
    rw [Value.compare?]
    split_ifs <;> rfl
  -- The pairs that are left are integers, or are not comparable.
  all_goals rfl

end Family

end RelMap
