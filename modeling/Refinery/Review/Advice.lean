import Refinery.Code.Complexity
import Refinery.Review.Finding

/-!
Advice drawn from findings: one piece for each kind of finding, in the order in which the kinds are
first found, and a general one for texts that are quadratic or worse when no other mentions hashing.
-/

namespace Refinery

/-- What to do about a kind of finding. -/
def FindingKind.advice? : FindingKind → Option Advice
  | nestedLoops => some {
      action := "Flatten or eliminate inner loop using a hash map / precomputed lookup".toList
      rationale := "Replaces O(n²) nested iteration with O(n) traversal".toList
      impact := .high }
  | repeatedComputation => some {
      action := "Cache repeated computation in a local variable before the loop".toList
      rationale := "Avoids redundant evaluation of the same expression on each iteration".toList
      impact := .medium }
  | inefficientDataStructure => some {
      action := "Replace Array.includes/indexOf membership test with a Set".toList
      rationale := "Set.has() is O(1) vs Array.includes() which is O(n)".toList
      impact := .high }
  | redundantCondition => some {
      action := "Simplify redundant conditional logic or use early return pattern".toList
      rationale := "Reduces cognitive load and may eliminate dead branches".toList
      impact := .low }
  | stringConcatInLoop => some {
      action := "Collect into an array and join once after the loop".toList
      rationale := "Avoids O(n²) string copying from repeated concatenation".toList
      impact := .high }
  | excessiveNesting => some {
      action := "Extract inner blocks into named helper functions, use guard clauses".toList
      rationale :=
        "Reduces cognitive overhead and makes control flow testable in isolation".toList
      impact := .medium }
  | largeFunction => some {
      action := "Decompose into smaller functions with single responsibilities".toList
      rationale := "Improves readability, testability, and reusability".toList
      impact := .low }
  | other _ => none

namespace Advice
open Text

def mentionsHash (a : Advice) : Bool := hasPart "hash".toList a.action

/-- The general advice for a slow text. -/
def hashing (complexity : Complexity) : Advice where
  action :=
    "Look for opportunities to use hash-based lookups (Map/Set) to reduce complexity".toList
  rationale := "Current complexity is ".toList ++ complexity ++
    "; hash structures may bring it to O(n)".toList
  impact := .high

/-- The advice for the kinds in a list, each kind once. -/
def ofKinds (kinds : List FindingKind) : List Advice :=
  kinds.eraseDups.filterMap FindingKind.advice?

/-- All advice for some findings in a text of the given complexity. -/
def ofFindings (findings : List Finding) (complexity : Complexity) : List Advice :=
  let specific := ofKinds (findings.map (·.kind))
  if complexity.isQuadraticOrWorse && !specific.any mentionsHash then
    specific ++ [hashing complexity]
  else specific

end Advice
end Refinery
