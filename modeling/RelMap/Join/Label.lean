import RelMap.Text.Basic

/-!
Labels for joined tables: the initials of the words of the table, with a number when these are
taken.
-/
namespace RelMap.Label

/-- The initials of the words between underscores, `t` where there are none. -/
def base (table : String) : String :=
  let initials := (table.toList.splitOn '_').filterMap List.head?
  if initials.isEmpty then "t" else String.ofList initials

/-- The `n`th label on a base: the base itself, then the base and a number. -/
def candidate (base : String) (n : Nat) : String :=
  if n ≤ 1 then base else base ++ toString n

/-- The first number from `n` on whose label is free. Each label found taken is left aside in
the rest of the search, which therefore ends. -/
def firstFree (base : String) (n : Nat) (used : List String) : Nat :=
  if candidate base n ∈ used then firstFree base (n + 1) (used.erase (candidate base n)) else n
termination_by used.length
decreasing_by
  have := List.length_pos_of_mem ‹candidate base n ∈ used›
  rw [List.length_erase_of_mem ‹_›]
  omega

end RelMap.Label
