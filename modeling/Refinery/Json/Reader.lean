import Refinery.Json.Basic

/-!
Reading JSON. The reader is strict about commas, quotes and control characters, takes the three
numbers NaN, Infinity and -Infinity, and of equal keys keeps the last value. A refusal says where
the text stopped being JSON.
-/

namespace Refinery.Json

/-- A refusal, with the length of the text from the refused place on. -/
inductive Refusal where
  | malformed (remaining : Nat)
  /-- An integer of more digits than the reader converts. -/
  | hugeInteger
  deriving DecidableEq

namespace Reader

/-- Refuses at the front of the given text. -/
def refuse {α : Type} (at_ : Text) : Except Refusal α := .error (.malformed at_.length)

def isSpace (c : Char) : Bool := c == ' ' || c == '\t' || c == '\n' || c == '\r'

def skipSpace (t : Text) : Text := t.dropWhile isSpace

def hexDigit? (c : Char) : Option Nat :=
  if c.isDigit then some (c.toNat - 48)
  else if 'a' ≤ c && c ≤ 'f' then some (c.toNat - 87)
  else if 'A' ≤ c && c ≤ 'F' then some (c.toNat - 55)
  else none

/-- The number that four hexadecimal digits at the front stand for. -/
def hex4? : Text → Option (Nat × Text)
  | a :: b :: c :: d :: t => do
    let a ← hexDigit? a
    let b ← hexDigit? b
    let c ← hexDigit? c
    let d ← hexDigit? d
    return (((a * 16 + b) * 16 + c) * 16 + d, t)
  | _ => none

def escaped? : Char → Option Char
  | '\x22' => some '\x22'
  | '\x5c' => some '\x5c'
  | '/' => some '/'
  | 'b' => some '\x08'
  | 'f' => some '\x0c'
  | 'n' => some '\n'
  | 'r' => some '\r'
  | 't' => some '\t'
  | _ => none

/-- The character of a code unit. Half of a pair on its own becomes the replacement character. -/
def unitChar (n : Nat) : Char := if 0xD800 ≤ n && n ≤ 0xDFFF then '\ufffd' else Char.ofNat n

/-- Reads the digits of a unicode escape, and a second escape where the two form a pair. What
follows the digits may not be the end of the text. -/
def unicodeEscape (slash digits : Text) : Except Refusal (Char × Text) :=
  match hex4? digits with
  | none => refuse (slash.drop 1)
  | some (_, []) => refuse (slash.drop 1)
  | some (high, rest) =>
    if 0xD800 ≤ high && high ≤ 0xDBFF then
      match rest with
      | '\x5c' :: 'u' :: more =>
        if more.length ≤ 4 then .ok (unitChar high, rest)
        else match hex4? more with
          | none => refuse (rest.drop 1)
          | some (low, after) =>
            if 0xDC00 ≤ low && low ≤ 0xDFFF then
              .ok (Char.ofNat (0x10000 + (high - 0xD800) * 0x400 + (low - 0xDC00)), after)
            else .ok (unitChar high, rest)
      | _ => .ok (unitChar high, rest)
    else .ok (unitChar high, rest)

/-- Reads up to the closing quote; `opening` is the text from the opening quote on. -/
def string (opening : Text) : Nat → Text → Except Refusal (Text × Text)
  | 0, _ => refuse opening
  | fuel + 1, t => match t with
    | [] => refuse opening
    | '\x22' :: rest => .ok ([], rest)
    | '\x5c' :: [] => refuse opening
    | '\x5c' :: 'u' :: digits => do
      let (c, rest) ← unicodeEscape t digits
      let (s, rest) ← string opening fuel rest
      return (c :: s, rest)
    | '\x5c' :: e :: rest => match escaped? e with
      | none => refuse t
      | some c => do
        let (s, rest) ← string opening fuel rest
        return (c :: s, rest)
    | c :: rest =>
      if c.toNat < 0x20 then refuse t
      else do
        let (s, rest) ← string opening fuel rest
        return (c :: s, rest)

def digits (t : Text) : Text × Text := t.span Char.isDigit

def ofDigits (ds : Text) : Nat := ds.foldl (fun n c => n * 10 + (c.toNat - 48)) 0

/-- The fraction at the front: a point and at least one digit. -/
def fraction (t : Text) : Text × Text :=
  match t with
  | '.' :: rest => match digits rest with
    | ([], _) => ([], t)
    | (ds, rest) => (ds, rest)
  | _ => ([], t)

/-- The exponent at the front: its letter, an optional sign, at least one digit. -/
def exponent? (t : Text) : Option (Int × Text) :=
  match t with
  | e :: rest =>
    if e == 'e' || e == 'E' then
      let (negative, rest) := match rest with
        | '-' :: r => (true, r)
        | '+' :: r => (false, r)
        | r => (false, r)
      match digits rest with
      | ([], _) => none
      | (ds, rest) => some (if negative then -(ofDigits ds : Int) else ofDigits ds, rest)
    else none
  | [] => none

/-- The most digits an integer may have. -/
def maxDigits : Nat := 4300

def number (t : Text) : Except Refusal (Json × Text) :=
  let (negative, body) := match t with
    | '-' :: r => (true, r)
    | r => (false, r)
  let whole : Option (Text × Text) := match body with
    | '0' :: r => some (['0'], r)
    | _ => match digits body with
      | ([], _) => none
      | w => some w
  match whole with
  | none => refuse t
  | some (ds, rest) =>
    let (frac, rest') := fraction rest
    match exponent? rest' with
    | some (e, rest'') =>
      .ok (.real (.ofDecimal negative (ofDigits (ds ++ frac)) (e - frac.length)), rest'')
    | none =>
      if frac.isEmpty then
        if maxDigits < ds.length then .error .hugeInteger
        else .ok (.int (if negative then -(ofDigits ds : Int) else ofDigits ds), rest)
      else .ok (.real (.ofDecimal negative (ofDigits (ds ++ frac)) (-(frac.length : Int))), rest')

/-! ### Values -/

/-- The constants and the word they are written with. -/
def constants : List (Text × Json) :=
  [("null".toList, .null), ("true".toList, .bool true), ("false".toList, .bool false),
    ("NaN".toList, .real .notANumber), ("Infinity".toList, .real (.infinite false)),
    ("-Infinity".toList, .real (.infinite true))]

def constant? (t : Text) : Option (Json × Text) :=
  constants.findSome? fun (word, value) => (Text.after? word t).map fun rest => (value, rest)

mutual

/-- Reads one value; nesting uses up the fuel. -/
def value : Nat → Text → Except Refusal (Json × Text)
  | 0, t => refuse t
  | fuel + 1, t => match t with
    | '\x22' :: rest => do
      let (s, rest) ← string t (rest.length + 1) rest
      return (.str s, rest)
    | '\x7b' :: rest =>
      match skipSpace rest with
      | '\x7d' :: rest => .ok (.obj [], rest)
      | rest => do
        let (fields, rest) ← members fuel rest []
        return (.obj fields, rest)
    | '[' :: rest =>
      match skipSpace rest with
      | ']' :: rest => .ok (.arr [], rest)
      | rest => do
        let (items, rest) ← elements fuel rest
        return (.arr items, rest)
    | _ => match constant? t with
      | some r => .ok r
      | none => number t

/-- Reads the members of an object from the first key on. -/
def members : Nat → Text → List (Text × Json) → Except Refusal (List (Text × Json) × Text)
  | 0, t, _ => refuse t
  | fuel + 1, t, read => match t with
    | '\x22' :: rest => do
      let (key, rest) ← string t (rest.length + 1) rest
      match skipSpace rest with
      | ':' :: rest =>
        let (v, rest) ← value fuel (skipSpace rest)
        let read := put key v read
        match skipSpace rest with
        | '\x7d' :: rest => return (read, rest)
        | ',' :: rest => members fuel (skipSpace rest) read
        | rest => refuse rest
      | rest => refuse rest
    | _ => refuse t

/-- Reads the elements of an array from the first one on. -/
def elements : Nat → Text → Except Refusal (List Json × Text)
  | 0, t => refuse t
  | fuel + 1, t => do
    let (v, rest) ← value fuel t
    match skipSpace rest with
    | ']' :: rest => return ([v], rest)
    | ',' :: rest =>
      let (vs, rest) ← elements fuel (skipSpace rest)
      return (v :: vs, rest)
    | rest => refuse rest

end

end Reader

def read (t : Text) : Except Refusal Json :=
  if t.head? == some '\ufeff' then .error (.malformed t.length)
  else do
    let (v, rest) ← Reader.value (t.length + 1) (Reader.skipSpace t)
    match Reader.skipSpace rest with
    | [] => return v
    | rest => Reader.refuse rest

/-- Where a refused text stopped being JSON, counted from its front. -/
def Refusal.position (t : Text) : Refusal → Nat
  | malformed remaining => t.length - remaining
  | hugeInteger => 0

end Refinery.Json
