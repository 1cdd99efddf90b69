/-!
# Text/Range — classes of characters

A class of characters is given by the ranges of its code points, both ends in the range, in
ascending order.
-/

namespace Hydration.Text

/-- A code point lies in one of the ranges. -/
def inRanges (ranges : List (Nat × Nat)) (code : Nat) : Bool :=
  ranges.any fun (first, last) => first ≤ code && code ≤ last

end Hydration.Text
