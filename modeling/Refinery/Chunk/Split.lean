import Refinery.Text.Basic

/-!
Cutting a long text into chunks. A chunk ends where it has reached the size limit, or, once it is
past half of the limit, in front of a line that opens a definition. The chunks are pieces of the
text: joined with newlines they give it back.
-/

namespace Refinery.Chunk
open Text

/-- The size limit where none is given. -/
def defaultSize : Int := 3200

/-- What a line that may open a chunk begins with. -/
def openers : List String := [
  "function ", "class ", "def ", "fn ", "public ", "private ", "protected ", "export ",
  "async function "]

def opensDefinition (line : Text) : Bool :=
  openers.any fun opener => startsWith opener.toList (trim line)

/-- The lines of the chunk under construction, and its length with a newline after each line. -/
structure Pile where
  lines : List Text := []
  size : Nat := 0

/-- The finished chunks and the pile after one more line. -/
def addLine (limit : Int) (state : List Text × Pile) (line : Text) : List Text × Pile :=
  let (done, pile) := state
  if opensDefinition line && !pile.lines.isEmpty && limit < 2 * pile.size then
    (done ++ [unlines pile.lines], ⟨[line], line.length + 1⟩)
  else
    let size := pile.size + line.length + 1
    let grown := pile.lines ++ [line]
    if limit ≤ size then (done ++ [unlines grown], {}) else (done, ⟨grown, size⟩)

/-- What is left on the pile becomes the last chunk, or joins it where only blanks are left. -/
def finish (done : List Text) (pile : Pile) : List Text :=
  if pile.lines.isEmpty then done
  else
    let rest := unlines pile.lines
    match done.getLast? with
    | none => [rest]
    | some last =>
      if blank rest then done.dropLast ++ [last ++ ['\n'] ++ rest] else done ++ [rest]

/-- The chunks of a text; a text within the limit is one chunk. -/
def split (code : Text) (limit : Int) : List Text :=
  if (code.length : Int) ≤ limit then [code]
  else
    let (done, pile) := (lines code).foldl (addLine limit) ([], {})
    finish done pile

end Refinery.Chunk
