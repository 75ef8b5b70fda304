import Refinery.Code.Shape
import Refinery.Code.Recursion

/-!
Complexity classes, as the texts that name them: the estimate for a measured text, the classes that
call for work, and the class a revision is expected to reach.
-/

namespace Refinery

/-- A complexity class is the text that names it. -/
abbrev Complexity := Text

namespace Complexity
open Text

def unknown : Complexity := "Unknown".toList

/-- A recognised algorithm decides; then recursion, then the nesting of loops. -/
def estimate (loopCount loopNesting : Nat) (algorithm : Complexity) (recursion : Recursion) :
    Complexity :=
  if algorithm != unknown then algorithm
  else if recursion.isDivideAndConquer then "O(n log n) typical".toList
  else if recursion.isRecursive then "O(n) to O(2ⁿ) (recursive)".toList
  else if 3 ≤ loopNesting then "O(n³) or worse".toList
  else if loopNesting = 2 then "O(n²)".toList
  else if 1 ≤ loopCount then "O(n)".toList
  else "O(1)".toList

def mentions (parts : List String) (c : Complexity) : Bool :=
  parts.any fun part => hasPart part.toList c

/-- Quadratic, cubic, or said to be worse. -/
def isQuadraticOrWorse (c : Complexity) : Bool :=
  mentions ["O(n²)", "O(n³)", "O(n2)", "O(n^2)", "O(n^3)", "worse"] c

/-- Written with a power of n above the first, or exponential. -/
def isPolynomialOrExponential (c : Complexity) : Bool := mentions ["O(n²", "O(n³", "O(2"] c

/-- The class that a changed text is credited with. -/
def improved (c : Complexity) : Complexity :=
  if mentions ["n²", "n^2"] c then "O(n)".toList
  else if mentions ["n³", "n^3"] c then "O(n²)".toList
  else if mentions ["n log n"] c then "O(n)".toList
  else c

end Complexity
end Refinery
