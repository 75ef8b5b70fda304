import Refinery.Code.Complexity
import Refinery.Review.Finding
import Refinery.Number.Reach

/-!
The score says how much there is to gain, from 0 to 1 in steps of a hundredth. It adds a weight for
each finding, for the complexity and for the advice of high impact, and shrinks for short texts.
The rounding of the arithmetic is an argument.
-/

namespace Refinery.Review
open Number

def weight (severity : Grade) : Rat :=
  match severity with
  | .high => 25 / 100
  | .medium => 15 / 100
  | _ => 5 / 100

def complexityWeight (c : Complexity) : Rat :=
  if c.mentions ["O(n²", "O(n³", "worse", "O(2"] then 25 / 100
  else if c.mentions ["O(n2)", "O(n^2)"] then 20 / 100
  else if c.mentions ["O(n)"] then 5 / 100
  else 0

/-- What one piece of advice of high impact adds, and the most that all of them add. -/
def impactWeight : Rat := 15 / 100

def impactCap : Rat := 30 / 100

/-- How much of the score a text of this many lines keeps. -/
def sizeFactor (lineCount : Nat) : Rat :=
  if lineCount < 5 then 3 / 10 else if lineCount < 10 then 6 / 10 else 1

/-- The sum of the weights, left to right. -/
def rawScore (round : Rounding) (findings : List Finding) (advice : List Advice) (c : Complexity) :
    Rat :=
  let found := (findings.map fun f => round (weight f.severity)).foldl (fun s w => round (s + w)) 0
  let slow := round (found + round (complexityWeight c))
  let high := (advice.filter (·.impact == .high)).length
  let gain := round (mkRat high 1 * round impactWeight)
  round (slow + if gain < round impactCap then gain else round impactCap)

def score (round : Rounding) (findings : List Finding) (advice : List Advice) (c : Complexity)
    (lineCount : Nat) : Rat :=
  let raw := round (rawScore round findings advice c * round (sizeFactor lineCount))
  clamp 0 1 (toPlaces round 2 raw)

theorem score_mem (round : Rounding) (findings : List Finding) (advice : List Advice)
    (c : Complexity) (lineCount : Nat) : 0 ≤ score round findings advice c lineCount ∧
      score round findings advice c lineCount ≤ 1 :=
  clamp_mem (by decide) _

end Refinery.Review
