/-!
# Ranges of code points

A property of characters is given by the ranges of code points that have it.
-/

namespace CodeActions.Text

/-- The character lies in one of the ranges. Both ends belong to a range. -/
def inRanges (ranges : List (Nat × Nat)) (c : Char) : Bool :=
  ranges.any fun (low, high) => low ≤ c.toNat && c.toNat ≤ high

end CodeActions.Text
