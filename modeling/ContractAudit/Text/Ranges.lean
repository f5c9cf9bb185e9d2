/-!
# Sorted ranges of code points

A character class beyond ASCII is a table of closed ranges, in ascending order and apart from each
other. `Ranges.contains` looks a number up by halving the table.
-/

namespace ContractAudit

/-- Closed ranges of numbers, ascending and disjoint. -/
abbrev Ranges := Array (Nat × Nat)

namespace Ranges

/-- Whether one of the ranges with index in `[low, high)` holds `n`. -/
def containsBetween (ranges : Ranges) (n low high : Nat) : Bool :=
  if low < high then
    let middle := (low + high) / 2
    match ranges[middle]? with
    | none => false
    | some (first, last) =>
      if n < first then ranges.containsBetween n low middle
      else if last < n then ranges.containsBetween n (middle + 1) high
      else true
  else false
termination_by high - low

/-- Whether one of the ranges holds `n`. -/
def contains (ranges : Ranges) (n : Nat) : Bool :=
  ranges.containsBetween n 0 ranges.size

end Ranges

end ContractAudit
