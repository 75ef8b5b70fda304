import Refinery.Code.Shape
import Refinery.Review.Finding

/-!
Detectors. Each one looks at a whole text and its shape and reports at most one finding; a review
keeps what all of them report, in a fixed order.
-/

namespace Refinery.Review
open Text

/-- Looks for one kind of evidence. -/
abbrev Detector := Text → Shape → Option Finding

/-- The hint for a finding at a place in the text. -/
def lineHint (code : Text) (index : Nat) : Option Text :=
  some ("line ".toList ++ Text.ofNat (lineAt code index))

def nestedLoops : Detector := fun _ shape =>
  let depth := shape.loopNesting
  if 2 ≤ depth then
    some {
      kind := .nestedLoops
      description := "Nested loops detected (depth ".toList ++ Text.ofNat depth ++
        "); likely O(n".toList ++ (if 2 < depth then "³" else "²").toList ++ ") behaviour".toList
      severity := if 3 ≤ depth then .high else .medium }
  else none

/-- The words of loops whose body follows in braces. -/
def bodyLoopWords : List Text := words ["for", "while"]

/-- The text from the first brace on, after a loop's word. -/
def loopBody : Recogniser Text := fun before t => do
  let t ← oneOfWords bodyLoopWords before t
  let (_, body) ← upTo? '\x7b' t
  return body

/-- Whether a place before the first closing brace is recognised. -/
def inBlock (r : Recogniser Unit) : Text → Bool
  | [] => false
  | c :: t => c != '\x7d' && ((r none (c :: t)).isSome || inBlock r t)

/-- A loop that asks for a length before its first closing brace. -/
def lengthInLoop : Recogniser Unit := fun before t => do
  let body ← loopBody before t
  let (segment, _) ← upTo? '\x7d' body
  guard ([".length", ".size()", ".count()"].any fun part => hasPart part.toList segment)

/-- A call of a method up to the first closing parenthesis, with its length. -/
def methodCall : Recogniser (Text × Nat) := fun before t => do
  guard (boundary before t)
  let rest ← someWord? t
  let rest ← char? '.' rest
  let rest ← someWord? rest
  let rest ← char? '(' rest
  let (_, rest) ← upTo? ')' rest
  let n := t.length - rest.length
  return (t.take n, n)

def repeatedCalls : Nat := 3

def repeatedComputation : Detector := fun code _ =>
  match find lengthInLoop code with
  | some (index, _) =>
    some {
      kind := .repeatedComputation
      description :=
        "Array .length / .size() called inside loop body; cache before loop".toList
      severity := .medium
      lineHint := lineHint code index }
  | none =>
    let calls := pieces methodCall none 0 code
    if calls.any fun call => repeatedCalls ≤ calls.count call then
      some {
        kind := .repeatedComputation
        description := "Same expression computed 3+ times; consider caching result".toList
        severity := .medium }
    else none

/-- A membership test on an array. -/
def membership : Recogniser Unit := fun _ t => do
  let t ← after? ".includes".toList t <|> after? ".indexOf".toList t
  let _ ← char? '(' (trimLeft t)

/-- An equality sign of two or three strokes before a word. -/
def equals : Recogniser Unit := fun _ t => do
  let t ← after? "==".toList t
  let t := (char? '=' t).getD t
  let _ ← someWord? (trimLeft t)

/-- A loop with a head in parentheses whose body compares before its first closing brace. -/
def linearSearch : Recogniser Unit := fun _ t => do
  let t ← after? "for".toList t
  let t ← char? '(' (trimLeft t)
  let (head, t) ← upTo? ')' t
  guard (!head.isEmpty)
  let t ← char? '\x7b' (trimLeft t)
  guard (inBlock equals t)

def inefficientDataStructure : Detector := fun code _ =>
  match find membership code with
  | none => none
  | some (index, _) =>
    let searched := occurs linearSearch code
    some {
      kind := .inefficientDataStructure
      description := (if searched then
        "Array.includes/indexOf used for membership test; a Set would give O(1) lookup"
        else "Array.includes() for lookup; consider Set for O(1) membership checks").toList
      severity := if searched then .high else .medium
      lineHint := lineHint code index }

/-- Two negations in front of a word. -/
def doubleNegation : Recogniser Unit := fun _ t => do
  let t ← char? '!' t
  let t ← char? '!' (trimLeft t)
  let _ ← someWord? (trimLeft t)

/-- A condition that is a constant. -/
def trivialCondition : Recogniser Unit := fun _ t => do
  let t ← after? "if".toList t
  let t ← char? '(' (trimLeft t)
  let t := trimLeft t
  let t ← after? "true".toList t <|> after? "false".toList t
  let _ ← char? ')' (trimLeft t)

/-- A returned value, the end of its block, and an alternative block. -/
def elseAfterReturn : Recogniser Unit := fun _ t => do
  let t ← after? "return".toList t
  let (value, t) ← upTo? ';' t
  guard (value.head?.any isBlank && 2 ≤ value.length)
  let t ← char? '\x7d' (trimLeft t)
  let t ← after? "else".toList (trimLeft t)
  let _ ← char? '\x7b' (trimLeft t)

/-- The redundant conditions in the order in which they are looked for. -/
def redundancies : List (Recogniser Unit × String) := [
  (doubleNegation, "Double negation (!!) detected; simplify condition"),
  (trivialCondition, "Trivial always-true/false condition found"),
  (elseAfterReturn, "Redundant else after return; early exit already handled")]

def redundantCondition : Detector := fun code _ =>
  redundancies.findSome? fun (sign, description) =>
    (find sign code).map fun (index, _) => {
      kind := .redundantCondition
      description := description.toList
      severity := .low
      lineHint := lineHint code index }

/-- An addition to a variable of something in quotes. -/
def addsQuoted : Recogniser Unit := fun _ t => do
  let t ← after? "+=".toList t
  match trimLeft t with
  | c :: _ => guard (c == '\x22' || c == '\x27' || c == '\x60')
  | [] => none

/-- A loop that adds something quoted before its first closing brace. -/
def braceConcat : Recogniser Unit := fun before t => do
  let body ← loopBody before t
  guard (inBlock addsQuoted body)

def isIndent (c : Char) : Bool := c == ' ' || c == '\t'

/-- The characters of an assigned variable. -/
def isTarget (c : Char) : Bool := isWord c || c == '.' || c == '[' || c == ']'

/-- Something in quotes, which may carry one letter in front. -/
def isQuoted : Text → Bool
  | c :: t =>
    let quote (d : Char) : Bool := d == '\x22' || d == '\x27'
    quote c || ("fFrRbB".toList.contains c && t.head?.any quote)
  | [] => false

/-- An indented addition to a variable of something quoted. -/
def indentedAddition (t : Text) : Option Unit := do
  let (indent, t) := t.span isIndent
  guard (!indent.isEmpty)
  let (target, t) := t.span isTarget
  guard (!target.isEmpty)
  let t ← after? "+=".toList (trimLeft t)
  guard (isQuoted (trimLeft t))

/-- Whether an indented addition begins one of the lines up to the first that is not indented. -/
def bodyAdds : List Text → Bool
  | [] => false
  | l :: ls =>
    (indentedAddition (unlines (l :: ls))).isSome ||
      (l.head?.any isIndent && !ls.isEmpty && bodyAdds ls)

/-- A line that begins with a loop's word and ends in a colon. -/
def isLoopHead (line : Text) : Bool :=
  let line := line.dropWhile isIndent
  (oneOfWords bodyLoopWords none line).isSome &&
    endsWith [':'] (line.reverse.dropWhile isIndent).reverse

/-- The number of the first line that is a loop's head over a body that adds something quoted. -/
def indentedConcat : List Text → Option Nat
  | [] => none
  | l :: ls =>
    if isLoopHead l && bodyAdds ls then some 0 else (indentedConcat ls).map (· + 1)

def stringConcatInLoop : Detector := fun code _ =>
  let hint : Option (Option Text) := match find braceConcat code with
    | some (index, _) => some (lineHint code index)
    | none => (indentedConcat (lines code)).map fun n => some ("line ".toList ++ Text.ofNat (n + 1))
  hint.map fun hint => {
    kind := .stringConcatInLoop
    description :=
      "String concatenation inside loop; use array.join() or StringBuilder equivalent".toList
    severity := .high
    lineHint := hint }

def excessiveDepth : Nat := 5

def severeDepth : Nat := 7

def excessiveNesting : Detector := fun _ shape =>
  if excessiveDepth ≤ shape.maxDepth then
    some {
      kind := .excessiveNesting
      description := "Nesting depth of ".toList ++ Text.ofNat shape.maxDepth ++
        " detected; extract helpers or use early returns".toList
      severity := if severeDepth ≤ shape.maxDepth then .high else .medium }
  else none

/-- A named function, and its text from the first opening to the first closing brace. -/
def functionBody : Recogniser Text := fun before t => do
  guard (boundary before t)
  let t ← after? "function".toList t
  let t ← someBlanks? t
  let t ← someWord? t
  let (_, t) ← upTo? '\x7b' t
  let (body, _) ← upTo? '\x7d' t
  return body

def largeFunctionLines : Nat := 80

def largeFileLines : Nat := 200

def largeFunction : Detector := fun code shape =>
  let large : Option Finding := do
    let (index, body) ← find functionBody code
    let n := (lines body).length
    guard (largeFunctionLines < n)
    return {
      kind := .largeFunction
      description := "Function body of ~".toList ++ Text.ofNat n ++
        " lines; consider splitting into smaller, focused functions".toList
      severity := .medium
      lineHint := lineHint code index }
  large <|>
    if largeFileLines < shape.lineCount then
      some {
        kind := .largeFunction
        description := "Large code block (".toList ++ Text.ofNat shape.lineCount ++
          " lines); modularization may improve maintainability".toList
        severity := .low }
    else none

/-- All detectors in the order of their findings. -/
def detectors : List Detector := [
  nestedLoops, repeatedComputation, inefficientDataStructure, redundantCondition,
  stringConcatInLoop, excessiveNesting, largeFunction]

def findings (code : Text) (shape : Shape) : List Finding :=
  detectors.filterMap fun detector => detector code shape

end Refinery.Review
