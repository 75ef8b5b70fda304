/-!
A text is the list of its characters. This module holds the blank characters, trimming, lines and
substring tests that every later module reads texts with. A text is the newline-join of its lines
(`unlines_lines`), so cutting into lines loses nothing.
-/

namespace Refinery

/-- A text is a list of characters; lengths and cuts count code points. -/
abbrev Text := List Char

namespace Text

/-- The characters that count as blank space, the newline among them. -/
def isBlank (c : Char) : Bool :=
  let n := c.toNat
  (9 ≤ n && n ≤ 13) || (28 ≤ n && n ≤ 32) || n == 0x85 || n == 0xA0 || n == 0x1680 ||
    (0x2000 ≤ n && n ≤ 0x200A) || n == 0x2028 || n == 0x2029 || n == 0x202F || n == 0x205F ||
    n == 0x3000

/-- A text of blanks only; the empty text is blank. -/
def blank (t : Text) : Bool := t.all isBlank

/-- A text, or another one in place of the empty text. -/
def orElse (t default : Text) : Text := if t.isEmpty then default else t

def trimLeft (t : Text) : Text := t.dropWhile isBlank

def trimRight (t : Text) : Text := (t.reverse.dropWhile isBlank).reverse

def trim (t : Text) : Text := trimRight (trimLeft t)

/-- Drops every leading and trailing copy of one character. -/
def trimChar (c : Char) (t : Text) : Text :=
  ((t.dropWhile (· == c)).reverse.dropWhile (· == c)).reverse

/-- Drops every trailing copy of one character. -/
def trimRightChar (c : Char) (t : Text) : Text := (t.reverse.dropWhile (· == c)).reverse

/-- The pieces between newlines; only the newline ends a line, and a text has at least one line. -/
def lines : Text → List Text
  | [] => [[]]
  | c :: t =>
    if c = '\n' then [] :: lines t
    else match lines t with
      | [] => [[c]]
      | l :: ls => (c :: l) :: ls

/-- Joins pieces with a separator between neighbours. -/
def join (sep : Text) : List Text → Text
  | [] => []
  | [t] => t
  | t :: u :: ts => t ++ sep ++ join sep (u :: ts)

/-- Joins lines with a newline between neighbours. -/
def unlines (ls : List Text) : Text := join ['\n'] ls

theorem lines_ne_nil (t : Text) : lines t ≠ [] := by
  cases t with
  | nil => simp [lines]
  | cons c t =>
    unfold lines
    split
    · simp
    · split <;> simp

/-- Cutting into lines and joining again gives the text back. -/
theorem unlines_lines (t : Text) : unlines (lines t) = t := by
  induction t with
  | nil => rfl
  | cons c t ih =>
    unfold lines
    split
    · next h =>
      cases hl : lines t with
      | nil => exact absurd hl (lines_ne_nil t)
      | cons l ls => rw [hl] at ih; simp [unlines, join, h] at ih ⊢; exact ih
    · cases hl : lines t with
      | nil => exact absurd hl (lines_ne_nil t)
      | cons l ls =>
        rw [hl] at ih
        cases ls <;> simp_all [unlines, join]

def countOf (c : Char) (t : Text) : Nat := t.count c

/-- The one-based line that the character at `index` is on. -/
def lineAt (t : Text) (index : Nat) : Nat := countOf '\n' (t.take index) + 1

/-- What follows `front`, if the text begins with it. -/
def after? (front : Text) (t : Text) : Option Text :=
  if front.isPrefixOf t then some (t.drop front.length) else none

def startsWith (front : Text) (t : Text) : Bool := front.isPrefixOf t

def endsWith (tail : Text) (t : Text) : Bool := tail.reverse.isPrefixOf t.reverse

/-- The text before the first occurrence of `part` and the text after it. -/
def cut? (part : Text) : Text → Option (Text × Text)
  | [] => if part.isEmpty then some ([], []) else none
  | c :: t => match after? part (c :: t) with
    | some rest => some ([], rest)
    | none => (cut? part t).map fun (before, rest) => (c :: before, rest)

def hasPart (part : Text) (t : Text) : Bool := (cut? part t).isSome

/-- Every occurrence of `old`, left to right and not overlapping, becomes `new`; an empty `old`
changes nothing. -/
def replaceAll (old new : Text) (t : Text) : Text :=
  if old.isEmpty then t else go t.length t
where
  go : Nat → Text → Text
    | 0, t => t
    | n + 1, t => match cut? old t with
      | none => t
      | some (before, rest) => before ++ new ++ go n rest

/-- The text before the last occurrence of `part` and the text after it. -/
def cutLast? (part : Text) (t : Text) : Option (Text × Text) :=
  (cut? part.reverse t.reverse).map fun (rest, before) => (before.reverse, rest.reverse)

def ofNat (n : Nat) : Text := (toString n).toList

def ofInt (i : Int) : Text := (toString i).toList

end Text
end Refinery
