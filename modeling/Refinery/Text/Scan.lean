import Refinery.Text.Word

/-!
Recognising pieces of a text. A recogniser looks at the character before a place and at the text
from there on; a search tries it at every place from the left. The readers below take a piece off
the front of a text.
-/

namespace Refinery.Text

/-- Answers whether, and with what, a place in a text is recognised. -/
abbrev Recogniser (α : Type) := Option Char → Text → Option α

/-- The leftmost recognised place from a given one on, and the answer there. -/
def findFrom {α : Type} (r : Recogniser α) (before : Option Char) (t : Text) : Option (Nat × α) :=
  match r before t with
  | some a => some (0, a)
  | none => match t with
    | [] => none
    | c :: rest => (findFrom r (some c) rest).map fun (n, a) => (n + 1, a)

def find {α : Type} (r : Recogniser α) (t : Text) : Option (Nat × α) := findFrom r none t

def occurs {α : Type} (r : Recogniser α) (t : Text) : Bool := (find r t).isSome

def findValue {α : Type} (r : Recogniser α) (t : Text) : Option α := (find r t).map (·.2)

/-- The answers at all recognised places. -/
def everyFrom {α : Type} (r : Recogniser α) (before : Option Char) : Text → List α
  | [] => []
  | c :: t =>
    let rest := everyFrom r (some c) t
    match r before (c :: t) with
    | some a => a :: rest
    | none => rest

/-- The answers from left to right where each recognised piece, whose length the recogniser tells,
is passed over; `skip` characters are passed over first. -/
def pieces {α : Type} (r : Recogniser (α × Nat)) (before : Option Char) (skip : Nat) : Text → List α
  | [] => []
  | c :: t => match skip with
    | k + 1 => pieces r (some c) k t
    | 0 => match r before (c :: t) with
      | some (a, n) => a :: pieces r (some c) (n - 1) t
      | none => pieces r (some c) 0 t

/-- A text to the letter. -/
def literal (s : String) : Recogniser Unit := fun _ t => (after? s.toList t).map fun _ => ()

/-- Drops a run of blanks, of which there must be one. -/
def someBlanks? : Text → Option Text
  | c :: t => if isBlank c then some (trimLeft t) else none
  | [] => none

/-- Drops a run of word characters, of which there must be one. -/
def someWord? : Text → Option Text
  | c :: t => if isWord c then some (t.dropWhile isWord) else none
  | [] => none

def char? (c : Char) : Text → Option Text
  | d :: t => if d == c then some t else none
  | [] => none

/-- The text before the first `c` and the text after it. -/
def upTo? (c : Char) (t : Text) : Option (Text × Text) :=
  match t.span (· != c) with
  | (before, _ :: rest) => some (before, rest)
  | (_, []) => none

/-- The text before the first `c`, or all of it. -/
def before (c : Char) (t : Text) : Text := t.takeWhile (· != c)

/-- A name: a first character and a run of further ones. -/
def name? (first further : Char → Bool) : Text → Option (Text × Text)
  | c :: t =>
    if first c then
      let (ds, rest) := t.span further
      some (c :: ds, rest)
    else none
  | [] => none

def nameStart (c : Char) : Bool := c.isAlpha || c == '_'

def namePart (c : Char) : Bool := c.isAlphanum || c == '_'

/-- A plain name: ASCII letters, digits and underscores, no digit first. -/
def plainName? : Text → Option (Text × Text) := name? nameStart namePart

/-- The whole word at the front, if a word begins there. -/
def wholeWord? (before : Option Char) (t : Text) : Option Text :=
  if before.any isWord then none
  else match wordRun t with
    | ([], _) => none
    | (w, _) => some w

/-- Recognises one of some whole words and answers with the text after it. -/
def oneOfWords (words : List Text) : Recogniser Text := fun before t =>
  match wholeWord? before t with
  | some w => if words.contains w then some (t.drop w.length) else none
  | none => none

def words (ws : List String) : List Text := ws.map String.toList

end Refinery.Text
