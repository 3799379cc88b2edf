/-!
Sort terms: the field to sort by, the direction, and the place of `NULL`.
-/
namespace RelMap

inductive Direction where
  | ascending
  | descending
  deriving DecidableEq

def Direction.sql : Direction → String
  | .ascending => "ASC"
  | .descending => "DESC"

inductive NullsPlace where
  | first
  | last
  deriving DecidableEq

structure SortTerm where
  field : String
  direction : Direction := .ascending
  /-- The place of `NULL`; without one it comes last, unless the database decides. -/
  nulls : Option NullsPlace := none
  deriving DecidableEq

end RelMap
