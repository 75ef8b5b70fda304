import Refinery.Text.Basic

/-!
Putting a revised chunk back where the chunk was. A revised text comes without the blanks around
it, so its first line has lost its indentation and the chunk its surrounding blank lines; both come
back from the chunk. If the other lines were moved to the left as well, all of them move back by the
indentation of the first line.
-/

namespace Refinery.Chunk
open Text

def indentation (line : Text) : Text := line.takeWhile isBlank

def leastIndent (ls : List Text) : Nat :=
  match ls.map fun l => (indentation l).length with
  | [] => 0
  | n :: ns => ns.foldl min n

def filled (line : Text) : Bool := !blank line

/-- The blank lines in front, the lines from the first to the last that is not blank, and the blank
lines at the end. -/
def surround (ls : List Text) : List Text × List Text × List Text :=
  let head := ls.takeWhile blank
  let rest := ls.dropWhile blank
  let tail := (rest.reverse.takeWhile blank).reverse
  (head, (rest.reverse.dropWhile blank).reverse, tail)

def indentBy (indent : Text) (ls : List Text) : List Text :=
  ls.map fun l => if filled l then indent ++ l else l

/-- Whether the lines below the first have lost indentation against those of the chunk. -/
def dedented (chunkRest rest : List Text) : Bool :=
  let before := chunkRest.filter filled
  let after := rest.filter filled
  !before.isEmpty && !after.isEmpty && leastIndent after < leastIndent before

/-- Seats `revised` in the place of `chunk`; a blank chunk stays as it is. -/
def reseat (chunk revised : Text) : Text :=
  match surround (lines chunk) with
  | (_, [], _) => chunk
  | (head, first :: chunkRest, tail) =>
    let indent := indentation first
    match lines (trimChar '\n' revised) with
    | [] => chunk
    | body :: rest =>
      let rest := if !indent.isEmpty && dedented chunkRest rest then indentBy indent rest else rest
      unlines (head ++ [indent ++ trimLeft body] ++ rest ++ tail)

end Refinery.Chunk
