import Refinery.Chunk.Split
import Refinery.Code.Algorithm
import Refinery.Code.Language
import Refinery.Number.Real
import Refinery.Review.Advice
import Refinery.Review.Detector
import Refinery.Review.Score

/-!
An analysis is everything that is known about a text before a model sees it. A report is the
analysis of a text: it depends on nothing but the text, the requested language and the chunk size,
and its score lies between nought and one.
-/

namespace Refinery

/-- What may be known about a text; the score is any number. -/
structure Analysis where
  lineCount : Nat
  charCount : Nat
  functionCount : Nat
  loopCount : Nat
  nestingDepth : Nat
  language : Language
  complexity : Complexity
  algorithm : Text
  score : Real64
  isOptimizable : Bool
  findings : List Finding
  advice : List Advice
  chunks : List Text

namespace Analysis

def isCut (r : Analysis) : Bool := 1 < r.chunks.length

def toJson (r : Analysis) : Json :=
  .mkObj [
    ("lineCount", .int r.lineCount), ("charCount", .int r.charCount),
    ("functionCount", .int r.functionCount), ("loopCount", .int r.loopCount),
    ("nestingDepth", .int r.nestingDepth), ("language", .str r.language),
    ("detected_patterns", .arr (r.findings.map Finding.toJson)),
    ("estimated_complexity", .str r.complexity), ("detected_algorithm", .str r.algorithm),
    ("possible_optimizations", .arr (r.advice.map Advice.toJson)),
    ("confidence_score", .real r.score), ("is_optimizable", .bool r.isOptimizable),
    ("chunks", .arr (r.chunks.map .str)), ("isTruncated", .bool r.isCut)]

end Analysis

/-- The analysis of a text, whose score is a share. -/
structure Report extends Analysis where
  isShare_score : score.IsShare

instance : Coe Report Analysis := ⟨Report.toAnalysis⟩

namespace Report
open Review

/-- The score from which on a text is worth the work. -/
def worthwhile (round : Number.Rounding) : Rat := round (1 / 2)

def ofText (code requested : Text) (chunkSize : Int) : Report :=
  let shape := Shape.ofText code
  let algorithm := Algorithm.ofText code
  let complexity := Complexity.estimate shape.loopCount shape.loopNesting algorithm.complexity
    (Recursion.ofText code)
  let found := Review.findings code shape
  let advice := Advice.ofFindings found complexity
  let score := Review.score Number.binary64 found advice complexity shape.lineCount
  { lineCount := shape.lineCount
    charCount := code.length
    functionCount := shape.functionCount
    loopCount := shape.loopCount
    nestingDepth := shape.maxDepth
    language := Language.resolve code requested
    complexity := complexity
    algorithm := algorithm.label
    score := .finite score
    isOptimizable := worthwhile Number.binary64 ≤ score &&
      (!found.isEmpty || complexity.isPolynomialOrExponential)
    findings := found
    advice := advice
    chunks := Chunk.split code chunkSize
    isShare_score := ⟨score, rfl, score_mem Number.binary64 found advice complexity shape.lineCount⟩ }

end Report
end Refinery
