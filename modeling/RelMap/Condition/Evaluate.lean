import RelMap.Condition.Basic
import RelMap.Condition.Pattern
import RelMap.Record
import RelMap.Value.Order

/-!
Conditions on records at hand. A comparison with `NULL`, or between values that are not
comparable, does not hold; neither does its opposite.
-/
namespace RelMap

/-- Whether two values that are not `NULL` are in an accepted order. -/
def Value.inOrder (accept : Ordering → Bool) (a b : Value) : Bool :=
  !a.isNull && !b.isNull && (a.compare? b).any accept

variable [Regex.Engine]

/-- Whether a value is a text that the pattern covers, or has such a text. -/
def Value.isLike (pattern : String) (value : Value) : Except Error Bool :=
  Pattern.isMatch pattern value.display

/-- Whether a value is what a lookup asks for. A pattern that the engine refuses is an error, but
`NULL` is not compared with any pattern. -/
def Lookup.holds (value : Value) : Lookup → Except Error Bool
  | .isNull => .ok value.isNull
  | .isNotNull => .ok !value.isNull
  | .eq v => .ok (if v.isNull then value.isNull else value.inOrder Ordering.isEq v)
  | .ne v => .ok (if v.isNull then !value.isNull else value.inOrder Ordering.isNe v)
  | .gt v => .ok (value.inOrder Ordering.isGT v)
  | .gte v => .ok (value.inOrder Ordering.isGE v)
  | .lt v => .ok (value.inOrder Ordering.isLT v)
  | .lte v => .ok (value.inOrder Ordering.isLE v)
  | .between low high =>
    .ok (value.inOrder Ordering.isGE low && value.inOrder Ordering.isLE high)
  | .oneOf values => .ok (values.any (value.inOrder Ordering.isEq))
  | .noneOf values =>
    .ok (values.isEmpty || (!value.isNull && !values.any (value.inOrder Ordering.isEq)))
  | .like pattern => do
    if value.isNull then return false
    value.isLike pattern
  | .notLike pattern => do
    if value.isNull then return false
    return !(← value.isLike pattern)

namespace Condition

mutual
/-- Whether a record satisfies a condition. A missing field counts as `NULL`; a fragment of SQL
cannot be evaluated. -/
def evaluate (r : Record) : Condition → Except Error Bool
  | .compare comparison => comparison.lookup.holds (r.get comparison.field.name)
  | .all conditions => evaluateAll r conditions
  | .any conditions => if allEmpty conditions then .ok true else evaluateAny r conditions
  | .not condition => do
    if condition.isEmpty then return true
    return !(← evaluate r condition)
  | .raw sql _ => .error (.hydration (.rawCondition sql))

/-- Up to the first condition that does not hold. -/
def evaluateAll (r : Record) : List Condition → Except Error Bool
  | [] => .ok true
  | condition :: rest => do
    if ← evaluate r condition then evaluateAll r rest else return false

/-- Up to the first condition that holds; empty ones do not count. -/
def evaluateAny (r : Record) : List Condition → Except Error Bool
  | [] => .ok false
  | condition :: rest => do
    if condition.isEmpty then evaluateAny r rest
    else if ← evaluate r condition then return true
    else evaluateAny r rest
end

end Condition
end RelMap
