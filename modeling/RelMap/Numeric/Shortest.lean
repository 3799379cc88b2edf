import RelMap.Numeric.Binary64

/-!
The shortest decimal that reads back as a given binary64 number: of all decimals in the interval
that rounds to the number, one on the coarsest power-of-ten grid, and of those the nearest.
-/
namespace RelMap

/-- The decimal `digits * 10 ^ exponent`. -/
structure Decimal where
  digits : Nat
  exponent : Int
  deriving DecidableEq

namespace Decimal

/-- Which of two equally near decimals is chosen. -/
inductive Tie where
  | up
  | toEven
  deriving DecidableEq

/-- An interval around a value, all three in quarters of the value's last binary place. -/
structure Interval where
  low : Nat
  value : Nat
  high : Nat
  unit : Int
  closed : Bool

/-- The interval of numbers that round to `x`; it is closed when the significand is even. -/
def Interval.around (x : Binary64) : Interval :=
  let m := x.significand
  let narrow := m = Binary64.implicitBit && -1074 < x.scale
  ⟨4 * m - if narrow then 1 else 2, 4 * m, 4 * m + 2, x.scale - 2, m % 2 = 0⟩

/-- The point of the grid `10 ^ k` nearest to the value, if the interval holds one. -/
def Interval.gridPoint? (i : Interval) (tie : Tie) (k : Int) : Option Nat :=
  let up := Nat.pow 2 i.unit.toNat * Nat.pow 10 (-k).toNat
  let down := Nat.pow 2 (-i.unit).toNat * Nat.pow 10 k.toNat
  let low := i.low * up
  let value := i.value * up
  let high := i.high * up
  let holds (d : Nat) := if i.closed then low ≤ d * down && d * down ≤ high
    else low < d * down && d * down < high
  let below := value / down
  let above := below + 1
  match holds below, holds above with
  | true, true =>
    let rest := 2 * (value % down)
    if rest < down then some below
    else if down < rest then some above
    else match tie with
      | .up => some above
      | .toEven => some (below + below % 2)
  | true, false => some below
  | false, true => some above
  | false, false => none

/-- Searches ever finer grids from `10 ^ k` on; `steps` bounds their number. -/
def Interval.search (i : Interval) (tie : Tie) : (steps : Nat) → (k : Int) → Decimal
  | 0, k => ⟨i.value, k⟩
  | steps + 1, k =>
    match i.gridPoint? tie k with
    | some d => ⟨d, k⟩
    | none => i.search tie steps (k - 1)

/-- The shortest decimal of the magnitude of a finite number other than zero. The first grid
tried is coarser than the number and the last one is exact. -/
def shortest (tie : Tie) (x : Binary64) : Decimal :=
  let i := Interval.around x
  let magnitude : Int := i.value.log2 + i.unit
  i.search tie 24 (magnitude * 30103 / 100000 + 2)

end Decimal
end RelMap
