/-!
# Ranges of code points

Properties of characters are given as tables of closed ranges of code points.

## Main definitions

* `inRanges table n`: the code point lies in one of the ranges
-/

namespace ChartQuery.Text

/-- The code point lies in one of the ranges. -/
def inRanges (table : List (Nat × Nat)) (n : Nat) : Bool :=
  table.any fun r => r.1 ≤ n && n ≤ r.2

end ChartQuery.Text
