import Refinery.Text.Scan
import Refinery.Text.Lower

/-!
Languages of code, as the texts that name them: the language a text seems to be in, the one a
request ends up with, and the tag that opens a fenced block of it.
-/

namespace Refinery

abbrev Language := Text

namespace Language
open Text

/-- A word and, after blanks, a word followed by a parenthesis. -/
def defining (s : String) : Recogniser Unit := fun _ t => do
  let t ← after? s.toList t
  let t ← someBlanks? t
  let t ← someWord? t
  let _ ← char? '(' (trimLeft t)

/-- Two texts with blanks between them. -/
def spaced (front back : String) : Recogniser Unit := fun _ t => do
  let t ← after? front.toList t
  let t ← someBlanks? t
  guard (startsWith back.toList t)

/-- An import of one word with nothing but blanks after it. -/
def lastImport : Recogniser Unit := fun _ t => do
  let t ← after? "import".toList t
  let t ← someBlanks? t
  let t ← someWord? t
  guard (blank t)

/-- A colon with nothing but blanks after it. -/
def lastColon : Recogniser Unit := fun _ t => do
  let t ← char? ':' t
  guard (blank t)

/-- The two words, the second of which blanks follow. -/
def mutableBinding : Recogniser Unit := fun _ t => do
  let t ← after? "let".toList t
  let t ← someBlanks? t
  let t ← after? "mut".toList t
  let _ ← someBlanks? t

/-- A path separator and a word. -/
def pathStep : Recogniser Unit := fun _ t => do
  let t ← after? "::".toList t
  let _ ← someWord? t

/-- The word, blanks, and an opening angle bracket. -/
def includeLine : Recogniser Unit := fun _ t => do
  let t ← after? "#include".toList t
  let _ ← char? '<' (trimLeft t)

def typeWords : List Text := words ["string", "number", "boolean", "any", "void"]

/-- A colon and the name of a basic type. -/
def typeMark : Recogniser Unit := fun _ t => do
  let t ← char? ':' t
  let _ ← oneOfWords typeWords (some ':') (trimLeft t)

/-- The signs of each language, tried in this order. -/
def signatures : List (List (Recogniser Unit) × String) := [
  ([defining "def", lastImport, lastColon], "Python"),
  ([defining "fn", mutableBinding, literal "println!"], "Rust"),
  ([spaced "package" "main", defining "func", literal "fmt."], "Go"),
  ([pathStep, literal "std::", literal "->"], "C++"),
  ([includeLine], "C"),
  ([spaced "public" "class", literal "System.out.println"], "Java"),
  ([typeMark], "TypeScript")]

def fallback : Language := "JavaScript".toList

def ofText (code : Text) : Language :=
  match signatures.find? fun row => row.1.any (occurs · code) with
  | some row => row.2.toList
  | none => fallback

/-- A requested language is kept unless it is blank or asks for detection. -/
def resolve (code requested : Text) : Language :=
  let requested := trim requested
  if ["".toList, "auto".toList].contains (lower requested) then ofText code else requested

/-- The languages whose tag is not their name in small letters. -/
def tags : List (String × String) := [
  ("JavaScript", "javascript"), ("TypeScript", "typescript"), ("Python", "python"),
  ("Java", "java"), ("C++", "cpp")]

def fenceTag (language : Language) : Text :=
  match tags.find? fun row => row.1.toList == language with
  | some row => row.2.toList
  | none => lower language

end Language
end Refinery
