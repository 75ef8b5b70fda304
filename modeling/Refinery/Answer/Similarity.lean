import Refinery.Number.Binary64
import Refinery.Text.Basic

/-!
Comparing two texts line by line: how alike they are in per cent, how many lines of each carry
meaning, and whether they are the same up to blanks at the ends of lines and of the text.
-/

namespace Refinery.Similarity
open Text Number

/-- The trimmed lines that are not blank. -/
def filledLines (t : Text) : List Text := ((lines t).map trim).filter (!·.isEmpty)

/-- Lines longer than this match when the front of one occurs in the other. -/
def frontLength : Nat := 10

/-- Whether two lines count as the same line. -/
def sameLine (a b : Text) : Bool :=
  a == b ||
    (frontLength < a.length && frontLength < b.length &&
      (hasPart (b.take frontLength) a || hasPart (a.take frontLength) b))

/-- The number of places at which two lists of lines have the same line. -/
def matching (before after : List Text) : Nat :=
  ((before.zip after).filter fun (a, b) => sameLine a b).length

/-- The share of matching lines among the longer list, weighted by the ratio of the lengths, in per
cent. -/
def percentOf (round : Rounding) (before after : List Text) : Int :=
  if before.isEmpty || after.isEmpty then 0
  else
    let longer := max before.length after.length
    let share := round (mkRat (matching before after) longer)
    let ratio := round (mkRat (min before.length after.length) longer)
    halfUp round (round (round (share * ratio) * 100))

def percent (round : Rounding) (before after : Text) : Int :=
  percentOf round (filledLines before) (filledLines after)

/-- A trimmed line that is neither blank nor a bare brace nor a comment. -/
def isMeaningful (line : Text) : Bool :=
  !line.isEmpty && line != ['\x7b'] && line != ['\x7d'] &&
    ["//", "#", "*"].all fun mark => !startsWith mark.toList line

def meaningfulLines (t : Text) : Nat := (((lines t).map trim).filter isMeaningful).length

/-- The text without blanks at the end of each line and around the whole. -/
def normalized (t : Text) : Text := trim (unlines ((lines t).map trimRight))

/-- Equal up to blanks at the ends of lines and of the text. -/
def unchanged (a b : Text) : Bool := normalized a == normalized b

end Refinery.Similarity
