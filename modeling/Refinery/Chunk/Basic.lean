import Refinery.Text.Basic

/-!
A chunk is a piece of a text together with the start of the piece after it, which a model may read
and must not revise.
-/

namespace Refinery

structure Chunk where
  index : Nat
  text : Text
  context : Option Text
  deriving DecidableEq

namespace Chunk
open Text

/-- The number of lines of the following piece that are shown. -/
def contextLines : Nat := 3

/-- What is shown of a following piece, if anything is left without its outer newlines. -/
def preview (next : Text) : Option Text :=
  match trimChar '\n' (unlines ((lines next).take contextLines)) with
  | [] => none
  | shown => some shown

/-- Numbers pieces from `index` on and gives each one its context. -/
def ofTextsFrom (index : Nat) : List Text → List Chunk
  | [] => []
  | [t] => [⟨index, t, none⟩]
  | t :: next :: ts => ⟨index, t, preview next⟩ :: ofTextsFrom (index + 1) (next :: ts)

def ofTexts (texts : List Text) : List Chunk := ofTextsFrom 0 texts

end Chunk
end Refinery
