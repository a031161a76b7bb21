/-!
# Shortest decimals of an interval

A number that is stored in binary stands for every real that rounds to it: an
interval around the number. Its text is the decimal of fewest digits inside that
interval, and of those the one nearest to the number. The arithmetic is exact:
ends, centre and grid are multiples of one unit.
-/

namespace Folio.Decimal

/-- Reals between two ends. The ends belong to it when `closed` is set. -/
structure Interval where
  low : Nat
  center : Nat
  high : Nat
  closed : Bool
  deriving DecidableEq, Repr

def Interval.contains (interval : Interval) (n : Nat) : Bool :=
  if interval.closed then interval.low ≤ n && n ≤ interval.high
  else interval.low < n && n < interval.high

/-- Counts how many units of the old size the new unit has. -/
def Interval.scale (interval : Interval) (factor : Nat) : Interval :=
  { interval with
    low := interval.low * factor, center := interval.center * factor,
    high := interval.high * factor }

/-- The multiple of `grid` inside the interval that is nearest to its centre,
as a count of grid steps. Of two equally near ones it is the even one. -/
def Interval.gridPoint? (interval : Interval) (grid : Nat) : Option Nat :=
  let below := interval.center / grid
  let above := below + 1
  let toBelow := interval.center - below * grid
  let toAbove := above * grid - interval.center
  let belowFirst := toBelow < toAbove || (toBelow = toAbove && below % 2 = 0)
  match interval.contains (below * grid), interval.contains (above * grid) with
  | true, true => some (if belowFirst then below else above)
  | true, false => some below
  | false, true => some above
  | false, false => none

theorem Interval.contains_of_gridPoint? {interval : Interval} {grid n : Nat}
    (h : interval.gridPoint? grid = some n) : interval.contains (n * grid) = true := by
  simp only [Interval.gridPoint?] at h
  split at h
  · split at h <;> cases h <;> assumption
  · cases h; assumption
  · cases h; assumption
  · cases h

end Folio.Decimal
