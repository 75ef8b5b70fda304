import Refinery.Text.Scan
import Refinery.Text.Folded

/-!
Recursion, judged by names alone: a function whose name is followed by an opening parenthesis twice
calls itself, since one of the two is its definition; three times together with the name of a split
point look like divide and conquer.
-/

namespace Refinery

/-- What the calls in a text suggest. -/
structure Recursion where
  isRecursive : Bool := false
  isDivideAndConquer : Bool := false
  deriving DecidableEq

namespace Recursion
open Text

def recursiveCalls : Nat := 2

def divideCalls : Nat := 3

/-- Words that look like a function's name before a parenthesis and are none. -/
def controlWords : List Text :=
  words ["if", "for", "while", "switch", "catch", "return", "function", "elif", "with", "do",
    "else", "sizeof", "typeof"]

/-- The name after a defining word, if a parenthesis follows it. -/
def definedBy (word : Text) : Recogniser Text := fun before t => do
  guard (boundary before t)
  let t ← after? word t
  let t ← someBlanks? t
  let (name, t) ← plainName? t
  let _ ← char? '(' (trimLeft t)
  return name

/-- A method: at the start of a line a name, a parameter list and an opening brace, with the length
of all this. -/
def method : Recogniser (Text × Nat) := fun before t => do
  guard (before.all (· == '\n'))
  let (name, rest) ← plainName? (trimLeft t)
  let rest ← char? '(' (trimLeft rest)
  let (_, rest) ← upTo? ')' rest
  let rest ← char? '\x7b' (trimLeft rest)
  return (name, t.length - rest.length)

/-- The names that functions seem to be defined under, each once, in the order of their kinds. -/
def candidates (code : Text) : List Text :=
  let names := everyFrom (definedBy "function".toList) none code ++
    everyFrom (definedBy "def".toList) none code ++ pieces method none 0 code
  (names.filter fun n => !controlWords.contains n).eraseDups

/-- A name that begins a word and is followed by a parenthesis. -/
def call (name : Text) : Recogniser Unit := fun before t => do
  guard (boundary before t)
  let t ← after? name t
  let _ ← char? '(' (trimLeft t)

def callCount (code name : Text) : Nat := (everyFrom (call name) none code).length

def splitWords : List Text := words ["mid", "middle", "pivot", "left", "right", "lo", "hi"]

def hasSplitPoint (code : Text) : Bool := occurs (oneOfWords splitWords) (folded code)

/-- The first candidate that seems to call itself decides. -/
def ofText (code : Text) : Recursion :=
  match (candidates code).find? fun name => recursiveCalls ≤ callCount code name with
  | some name => ⟨true, divideCalls ≤ callCount code name && hasSplitPoint code⟩
  | none => {}

end Recursion
end Refinery
