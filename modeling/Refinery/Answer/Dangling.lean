import Refinery.Text.Scan
import Refinery.Text.Folded

/-!
Signs that a text stops in the middle of something: one set for code that is to be delivered, and a
wider one for the raw output of a model.
-/

namespace Refinery.Dangling
open Text

/-- The word that a text ends in. -/
def lastWord (t : Text) : Text := (t.reverse.takeWhile isWord).reverse

def endsInOneOf (tails : List String) (t : Text) : Bool := tails.any fun s => endsWith s.toList t

/-- Words after which something has to follow. -/
def openWords : List Text := words ["if", "for", "while", "function", "class", "def"]

/-- Code that stops after an ellipsis, an arrow, an opening word or an opening bracket. -/
def isTruncated (code : Text) : Bool :=
  let tail := trimRight code
  endsInOneOf ["...", "..", "->", "\x7b", "(", "["] tail ||
    ("struct".toList :: openWords).contains (lastWord tail)

/-- Output that stops after an ellipsis, an arrow between blanks, an opening word, a bracket that
nothing closes, a brace, a backslash or the start of a comment. -/
def looksIncomplete (output : Text) : Bool :=
  let tail := trimRight output
  endsInOneOf ["...", "..", " -> "] output ||
    (endsWith ['('] output && !output.contains ')') ||
    openWords.contains (lastWord (folded tail)) ||
    endsInOneOf ["\x7b", "\x5c", "/*"] tail

end Refinery.Dangling
