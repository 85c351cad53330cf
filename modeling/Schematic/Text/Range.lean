/-!
# Character ranges

Properties of characters are tables of ranges of code points.

* `inRanges`: whether a code point lies in one of the ranges of a table.
-/

namespace Schematic.Text

/-- Whether a code point lies in one of the ranges, ends included. -/
def inRanges (ranges : List (Nat × Nat)) (code : Nat) : Bool :=
  ranges.any fun r => r.1 ≤ code && code ≤ r.2

end Schematic.Text
