import Refinery.Text.Basic

/-!
Brackets that a text leaves open. Brackets inside string and template literals do not count; a
closing bracket counts only against the innermost open one. A text can be repaired by writing the
closing brackets that are owed.
-/

namespace Refinery.Brackets

/-- The closing bracket that an opening one asks for. -/
def closer? : Char → Option Char
  | '\x7b' => some '\x7d'
  | '(' => some ')'
  | '[' => some ']'
  | _ => none

def isCloser (c : Char) : Bool := c == '\x7d' || c == ')' || c == ']'

def isQuote (c : Char) : Bool := c == '\x22' || c == '\x27' || c == '\x60'

/-- Literals in single or double quotes end with their line. -/
def endsWithLine (quote : Char) : Bool := quote == '\x22' || quote == '\x27'

/-- What the scanner is inside of. -/
inductive Mode where
  | code
  | literal (quote : Char)
  /-- A literal just after a backslash. -/
  | escaped (quote : Char)
  deriving DecidableEq

/-- The state of the scanner; `owed` holds the closers, innermost first. -/
structure Scan where
  owed : List Char
  mode : Mode
  deriving DecidableEq

namespace Scan

def start : Scan := ⟨[], .code⟩

def step (s : Scan) (c : Char) : Scan :=
  match s.mode with
  | .escaped q => ⟨s.owed, .literal q⟩
  | .literal q =>
    if c == '\x5c' then ⟨s.owed, .escaped q⟩
    else if c == q then ⟨s.owed, .code⟩
    else if c == '\n' && endsWithLine q then ⟨s.owed, .code⟩
    else s
  | .code =>
    if isQuote c then ⟨s.owed, .literal c⟩
    else match closer? c with
      | some d => ⟨d :: s.owed, .code⟩
      | none => if isCloser c && s.owed.head? == some c then ⟨s.owed.tail, .code⟩ else s

def run (s : Scan) (code : Text) : Scan := code.foldl step s

end Scan

/-- The closing brackets that a text owes, innermost first. -/
def owed (code : Text) : List Char := (Scan.start.run code).owed

def closing (owed : List Char) : Text := Text.unlines (owed.map fun c => [c])

/-- The text with the closers that it owes, if it owes any. -/
def repair? (code : Text) : Option Text :=
  match owed code with
  | [] => none
  | owed => some (Text.trimRight code ++ ['\n'] ++ closing owed)

def repaired (code : Text) : Text := (repair? code).getD code

end Refinery.Brackets
