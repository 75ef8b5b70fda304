import Refinery.Text.Scan

/-!
The shape of a piece of code, measured in one pass over its lines: block depth, loops and their
nesting, functions, lines. Braces give the block depth; a line that ends in a colon opens a block
that lasts as long as later lines are indented past it. A loop counts as nested while the scope of
another loop is open, so other blocks never add to the nesting of loops.
-/

namespace Refinery

structure Shape where
  maxDepth : Nat
  loopCount : Nat
  loopNesting : Nat
  functionCount : Nat
  lineCount : Nat
  deriving DecidableEq

namespace Shape
open Text

def loopWords : List Text := words ["for", "while", "do"]

/-- A word that announces a function, or an arrow before a block. -/
def functionToken : Recogniser Unit := fun before t => do
  guard (boundary before t)
  let arrow := do
    let t ← after? "=>".toList t
    char? '\x7b' (trimLeft t)
  let method := do
    let t ← after? "async".toList t
    let t ← someBlanks? t
    let t ← someWord? t
    char? '(' (trimLeft t)
  let _ ← after? "function".toList t <|> after? "def ".toList t <|> after? "fn ".toList t <|>
    arrow <|> method

/-- The change of brace depth that a character makes. -/
def braceStep (c : Char) : Int := if c == '\x7b' then 1 else if c == '\x7d' then -1 else 0

/-- The brace depth at each loop word of a line that begins at `depth`. -/
def loopDepths (before : Option Char) (depth : Int) : Text → List Int
  | [] => []
  | c :: t =>
    let rest := loopDepths (some c) (depth + braceStep c) t
    if (oneOfWords loopWords before (c :: t)).isSome then depth :: rest else rest

/-- The brace depth after a line and the greatest depth on it. -/
def braces (depth peak : Int) : Text → Int × Int
  | [] => (depth, peak)
  | c :: t =>
    let depth := depth + braceStep c
    braces depth (max peak depth) t

/-- The scope of a loop: the brace depth and indentation at its word, and whether indentation
delimits its body. -/
structure LoopScope where
  depth : Int
  indent : Nat
  indented : Bool
  deriving DecidableEq

/-- What the pass knows between two lines. -/
structure Scan where
  depth : Int := 0
  maxDepth : Nat := 0
  loopCount : Nat := 0
  loopNesting : Nat := 0
  functionCount : Nat := 0
  openLoops : List LoopScope := []
  openBlocks : List Nat := []

def indentOf (line : Text) : Nat := (line.takeWhile isBlank).length

namespace Scan

/-- Indentation closes scopes at a line that is not blank. -/
def dedent (s : Scan) (line : Text) : Scan :=
  if blank line then s
  else
    { s with
      openBlocks := s.openBlocks.filter (· < indentOf line)
      openLoops := s.openLoops.filter fun l => !l.indented || l.indent < indentOf line }

/-- A loop opens at the given brace depth. -/
def openLoop (indent : Nat) (indented : Bool) (s : Scan) (depth : Int) : Scan :=
  let loops := s.openLoops ++ [⟨depth, indent, indented⟩]
  { s with
    openLoops := loops
    loopCount := s.loopCount + 1
    loopNesting := max s.loopNesting loops.length }

/-- Goes over the braces of a line; loops in braces close where their block has closed. -/
def close (s : Scan) (line : Text) (colon : Bool) : Scan :=
  let (depth, peak) := braces s.depth s.depth line
  let blocks := if colon then s.openBlocks ++ [indentOf line] else s.openBlocks
  { s with
    depth := depth
    openBlocks := blocks
    maxDepth := max s.maxDepth (peak + blocks.length).toNat
    openLoops := s.openLoops.filter fun l => l.indented || l.depth < depth }

def line (s : Scan) (line : Text) : Scan :=
  let stripped := trim line
  let colon := endsWith [':'] stripped
  let s := s.dedent line
  let s :=
    if occurs functionToken stripped then { s with functionCount := s.functionCount + 1 } else s
  let s := (loopDepths none s.depth line).foldl (openLoop (indentOf line) colon) s
  s.close line colon

end Scan

def ofText (code : Text) : Shape :=
  let s : Scan := (lines code).foldl Scan.line {}
  ⟨s.maxDepth, s.loopCount, s.loopNesting, s.functionCount, (lines code).length⟩

end Shape
end Refinery
