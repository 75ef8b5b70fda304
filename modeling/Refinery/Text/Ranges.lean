import Refinery.Text.Basic

/-!
Character classes given by ranges of code points.
-/

namespace Refinery.Text

/-- Whether a code point lies in one of the ranges, ends included. -/
def inRanges (ranges : List (Nat × Nat)) (n : Nat) : Bool :=
  ranges.any fun (first, last) => first ≤ n && n ≤ last

end Refinery.Text
