import Refinery.Text.Scan
import Refinery.Text.Folded

/-!
Finding the code in the raw output of a model. A closed fenced block comes first, then a block that
was not closed, then a text that is one inline span; failing all of these, what is left of the text
when lines of prose are dropped. Comments are code and stay.
-/

namespace Refinery.Extract
open Text

/-- The words with which an announcement begins, in lower case; the two parts of a pair have blanks
between them. -/
def announcements : List (String × Option String) := [
  ("here", some "is"), ("below", some "is"), ("the", some "optimized"), ("optimized", some "code"),
  ("optimized", some "version"), ("output", none), ("result", none), ("answer", none),
  ("fixed", none), ("improved", none)]

/-- What follows the opening words of an announcement. -/
def afterOpening? (t : Text) : Option Text :=
  let front := folded t
  announcements.findSome? fun (first, second) => do
    let rest ← after? first.toList front
    let rest ← match second with
      | none => some rest
      | some second => (someBlanks? rest).bind (after? second.toList)
    return t.drop (t.length - rest.length)

/-- What follows a first line that announces the answer and ends in a colon. -/
def afterAnnouncement? (t : Text) : Option Text := do
  let rest ← afterOpening? t
  let (line, rest) ← upTo? '\n' rest
  guard (endsWith [':'] (trimRight line))
  return rest

def withoutAnnouncement (t : Text) : Text := trim ((afterAnnouncement? t).getD t)

def fence : Text := "```".toList

def isTag (c : Char) : Bool := isWord c || c == '+' || c == '#' || c == '-'

/-- What follows the opening line of a fenced block. -/
def opening? (t : Text) : Option Text := do
  let t ← after? fence t
  let t := t.dropWhile isTag
  char? '\n' (t.dropWhile fun c => isBlank c && c != '\n')

/-- A block from its opening line to the next fence. -/
def closedBlock : Recogniser Text := fun _ t => do
  let t ← opening? t
  let (body, _) ← cut? fence t
  return body

/-- A block from its opening line to the end of the text. -/
def openBlock : Recogniser Text := fun _ t => do
  let body ← opening? t
  guard (!body.isEmpty)
  return body

/-- What a text that is a single inline span holds. -/
def inlineSpan? (t : Text) : Option Text := do
  let t ← char? '\x60' t
  let (body, rest) ← upTo? '\x60' t
  guard (!body.isEmpty && blank rest)
  return body

def isSmall (c : Char) : Bool := c.isLower

/-- A capitalised word and at least two small ones, with a full stop or the like directly after the
last. -/
def looksLikeProse (line : Text) : Bool :=
  match (trim line).reverse with
  | stop :: body =>
    let body := body.reverse
    let smallWord (w : Text) : Bool := !w.isEmpty && w.all isSmall
    (stop == '.' || stop == '!' || stop == '?') && !(body.getLast?.any isBlank) &&
      match (body.splitOnP isBlank).filter (!·.isEmpty) with
      | (c :: cs) :: ws => c.isUpper && smallWord cs && 2 ≤ ws.length && ws.all smallWord
      | _ => false
  | [] => false

/-- The lines that are neither blank nor prose. -/
def codeLines (t : Text) : Text :=
  unlines ((lines t).filter fun l => !blank l && !looksLikeProse l)

/-- A trimmed text, if anything is left of it. -/
def present? (t : Text) : Option Text :=
  let t := trim t
  if t.isEmpty then none else some t

/-- The code that a raw text carries. -/
def code? (raw : Text) : Option Text :=
  if blank raw then none
  else
    let t := withoutAnnouncement (trim raw)
    match findValue closedBlock t with
    | some body => present? body
    | none => match (findValue openBlock t).bind present? with
      | some body => some body
      | none => match inlineSpan? t with
        | some body => present? body
        | none => present? (codeLines t)

end Refinery.Extract
