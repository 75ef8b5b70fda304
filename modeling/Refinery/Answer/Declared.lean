import Refinery.Text.Scan

/-!
The names that a text declares or imports, found line by line, and those that a revision has lost.
A line declares at most one variable, one function and one class.
-/

namespace Refinery

/-- Names by kind, each once, in the order in which they are first seen. -/
structure Declared where
  vars : List Text := []
  functions : List Text := []
  classes : List Text := []
  imports : List Text := []
  deriving DecidableEq

namespace Declared
open Text

/-- An identifier; a dollar sign counts as a letter. -/
def identifier? : Text → Option (Text × Text) :=
  name? (fun c => nameStart c || c == '$') (fun c => namePart c || c == '$')

def afterOneOf? (fronts : List String) (t : Text) : Option Text :=
  fronts.findSome? fun front => after? front.toList t

/-- The identifier after a word and blanks. -/
def announced (fronts : List String) : Recogniser Text := fun _ t => do
  let t ← afterOneOf? fronts t
  let t ← someBlanks? t
  let (name, _) ← identifier? t
  return name

def variableName : Recogniser Text := announced ["const", "let", "var"]

def className : Recogniser Text := announced ["class"]

/-- A plain name after the word and before a parenthesis. -/
def definedName : Recogniser Text := fun _ t => do
  let t ← after? "def".toList t
  let t ← someBlanks? t
  let (name, t) ← plainName? t
  let _ ← char? '(' (trimLeft t)
  return name

/-- An identifier that a function or an arrow function is assigned to. -/
def assignedName : Recogniser Text := fun _ t => do
  let (name, t) ← identifier? t
  let t ← char? '=' (trimLeft t)
  let t := trimLeft t
  let arrow := do
    let t ← char? '(' t
    let (_, t) ← upTo? ')' t
    after? "=>".toList (trimLeft t)
  let _ ← after? "function".toList t <|> arrow
  return name

/-- The words that may stand in front of a method's type. -/
def modifiers : List String := [
  "public", "private", "protected", "static", "final", "synchronized", "override", "inline",
  "virtual", "explicit"]

def isTypeChar (c : Char) : Bool := isWord c || "<>[]*&:".toList.contains c

/-- The name of a method: a type, blanks, a plain name, and a parenthesis. -/
def typedName? (t : Text) : Option Text := do
  let (type, t) := t.span isTypeChar
  guard (!type.isEmpty)
  let t ← someBlanks? t
  let (name, t) ← plainName? t
  let _ ← char? '(' (trimLeft t)
  return name

def afterModifier? (t : Text) : Option Text := (afterOneOf? modifiers t).bind someBlanks?

/-- The name of a method after as many modifiers as can be passed over, at least one. -/
def methodName (count : Nat) (t : Text) : Option Text :=
  match count with
  | 0 => none
  | n + 1 => do
    let t ← afterModifier? t
    methodName n t <|> typedName? t

/-- The name of a function declared at a place, in whichever way comes first. -/
def functionName : Recogniser Text := fun before t =>
  announced ["function"] before t <|> definedName before t <|> assignedName before t <|>
    methodName t.length t

/-- What quotes of either kind hold. -/
def quoted? (t : Text) : Option Text :=
  let isQuote (c : Char) : Bool := c == '\x27' || c == '\x22'
  match t with
  | q :: t =>
    match t.span (!isQuote ·) with
    | (body, _ :: _) => if isQuote q && !body.isEmpty then some body else none
    | (_, []) => none
  | [] => none

def source : Recogniser Text := fun _ t => do
  let t ← after? "from".toList t
  let t ← someBlanks? t
  quoted? t

/-- An import with a quoted source later on the line. -/
def sourcedImport : Recogniser Text := fun _ t => do
  let t ← after? "import".toList t
  let t ← someBlanks? t
  findValue source t

/-- A run of characters that are not blank, and the rest. -/
def solid? (t : Text) : Option (Text × Text) :=
  match t.span (!isBlank ·) with
  | ([], _) => none
  | run => some run

/-- The word after the import word at the front. -/
def bareImport? (t : Text) : Option Text := do
  let t ← after? "import".toList t
  let t ← someBlanks? t
  let (name, _) ← solid? t
  return name

/-- The source of an import that names its source first. -/
def fromImport? (t : Text) : Option Text := do
  let t ← after? "from".toList t
  let t ← someBlanks? t
  let (name, t) ← solid? t
  let t ← someBlanks? t
  let _ ← bareImport? t
  return name

/-- The dotted path after the import word at the front. -/
def pathImport? (t : Text) : Option Text := do
  let t ← after? "import".toList t
  let t ← someBlanks? t
  match t.takeWhile fun c => isWord c || c == '.' with
  | [] => none
  | path => some path

/-- The file that a line includes. -/
def included? (t : Text) : Option Text := do
  let t ← after? "#include".toList t
  match trimLeft t with
  | c :: t =>
    guard (c == '<' || c == '\x22')
    match t.span fun d => d != '>' && d != '\x22' with
    | (file, _ :: _) => if file.isEmpty then none else some file
    | (_, []) => none
  | [] => none

/-- Everything that a line imports. -/
def importsOf (line : Text) : List Text :=
  let first := findValue sourcedImport line <|> fromImport? line <|> bareImport? line
  first.toList ++ (pathImport? line).toList ++ (included? line).toList

def ofText (code : Text) : Declared :=
  let ls := (lines code).map trim
  { vars := (ls.filterMap (findValue variableName)).eraseDups
    functions := (ls.filterMap (findValue functionName)).eraseDups
    classes := (ls.filterMap (findValue className)).eraseDups
    imports := (ls.flatMap importsOf).eraseDups }

/-- Names of counters and the like, which a revision may drop. -/
def trivialNames : List Text :=
  words ["tmp", "temp", "idx", "len", "val", "res", "ret", "err", "ok", "cb"]

/-- One small letter, or one of the common names of temporaries. -/
def isTrivial (name : Text) : Bool :=
  trivialNames.contains name ||
    match name with
    | [c] => c.isLower
    | _ => false

/-- The names of `before` that `after` lacks, trivial variables aside. -/
def missing (before after : Declared) : Declared where
  vars := before.vars.filter fun v => !after.vars.contains v && !isTrivial v
  functions := before.functions.filter (!after.functions.contains ·)
  classes := before.classes.filter (!after.classes.contains ·)
  imports := before.imports.filter (!after.imports.contains ·)

/-- What a revision has lost. -/
def lost (before after : Text) : Declared := missing (ofText before) (ofText after)

def isEmpty (d : Declared) : Bool :=
  d.vars.isEmpty && d.functions.isEmpty && d.classes.isEmpty && d.imports.isEmpty

/-- The count and the names of each kind that has any. -/
def describe (d : Declared) : Text :=
  let part (row : List Text × String) : Option Text :=
    if row.1.isEmpty then none
    else some (Text.ofNat row.1.length ++ [' '] ++ row.2.toList ++ ": ".toList ++
      join ", ".toList row.1)
  join "; ".toList ([(d.vars, "variable(s)"), (d.functions, "function(s)"),
    (d.classes, "class(es)"), (d.imports, "import(s)")].filterMap part)

end Declared
end Refinery
