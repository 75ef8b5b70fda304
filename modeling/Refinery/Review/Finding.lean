import Refinery.Json.Basic

/-!
Findings are pieces of evidence that code can be improved; advice is what to do about them. Both
carry a grade.
-/

namespace Refinery

/-- How much a finding weighs or an advice promises. -/
inductive Grade where
  | high
  | medium
  | low
  | other (name : Text)
  deriving DecidableEq

namespace Grade

def name : Grade → Text
  | high => "high".toList
  | medium => "medium".toList
  | low => "low".toList
  | other n => n

def ofName (n : Text) : Grade :=
  if n == "high".toList then high
  else if n == "medium".toList then medium
  else if n == "low".toList then low
  else other n

theorem name_ofName (n : Text) : (ofName n).name = n := by
  unfold ofName
  split
  · next h => exact (beq_iff_eq.mp h).symm
  · split
    · next h => exact (beq_iff_eq.mp h).symm
    · split
      · next h => exact (beq_iff_eq.mp h).symm
      · rfl

end Grade

/-- What a finding is evidence of. -/
inductive FindingKind where
  | nestedLoops
  | repeatedComputation
  | inefficientDataStructure
  | redundantCondition
  | stringConcatInLoop
  | excessiveNesting
  | largeFunction
  | other (name : Text)
  deriving DecidableEq

namespace FindingKind

/-- The kinds that detectors look for, with their names. -/
def known : List (FindingKind × String) := [
  (nestedLoops, "nested_loops"), (repeatedComputation, "repeated_computation"),
  (inefficientDataStructure, "inefficient_data_structure"),
  (redundantCondition, "redundant_condition"), (stringConcatInLoop, "string_concat_in_loop"),
  (excessiveNesting, "excessive_nesting"), (largeFunction, "large_function")]

def name : FindingKind → Text
  | nestedLoops => "nested_loops".toList
  | repeatedComputation => "repeated_computation".toList
  | inefficientDataStructure => "inefficient_data_structure".toList
  | redundantCondition => "redundant_condition".toList
  | stringConcatInLoop => "string_concat_in_loop".toList
  | excessiveNesting => "excessive_nesting".toList
  | largeFunction => "large_function".toList
  | other n => n

def ofName (n : Text) : FindingKind :=
  match known.find? fun row => row.2.toList == n with
  | some row => row.1
  | none => other n

end FindingKind

/-- One piece of evidence, with the line it is on where a detector can tell. -/
structure Finding where
  kind : FindingKind
  description : Text
  severity : Grade
  lineHint : Option Text := none
  deriving DecidableEq

/-- An action, the reason for it, and how much it promises. -/
structure Advice where
  action : Text
  rationale : Text
  impact : Grade
  deriving DecidableEq

def Finding.toJson (f : Finding) : Json :=
  .mkObj ([("type", .str f.kind.name), ("description", .str f.description),
    ("severity", .str f.severity.name)] ++
    match f.lineHint with
    | some hint => [("lineHint", .str hint)]
    | none => [])

def Advice.toJson (a : Advice) : Json :=
  .mkObj [("action", .str a.action), ("rationale", .str a.rationale),
    ("expectedImpact", .str a.impact.name)]

end Refinery
