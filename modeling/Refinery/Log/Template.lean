import Refinery.Json.Display

/-!
Templates of log messages. A directive is a percent sign, a key in parentheses, flags, a width, a
precision and a letter, of which only the first and the last must be there; it is replaced by the
next argument, or by the value of its key. A template that does not suit its arguments has no text.
-/

namespace Refinery.Log

inductive Size where
  | absent
  | given (n : Nat)
  /-- The next argument. -/
  | argument

/-- A place in a template that an argument fills. -/
structure Directive where
  key : Option Text := none
  flags : Text := []
  width : Size := .absent
  precision : Size := .absent
  letter : Char

/-- A piece of a template. -/
inductive Piece where
  | literal (c : Char)
  | directive (d : Directive)

namespace Template

/-- The key up to the parenthesis that closes it, and the text after that. -/
def key? (depth : Nat) : Text → Option (Text × Text)
  | [] => none
  | c :: t =>
    if c == ')' && depth = 0 then some ([], t)
    else
      let depth := if c == '(' then depth + 1 else if c == ')' then depth - 1 else depth
      (key? depth t).map fun (k, rest) => (c :: k, rest)

def isFlag (c : Char) : Bool := ['-', '+', ' ', '#', '0'].contains c

/-- A size at the front; no digits are no size. -/
def size (t : Text) : Size × Text :=
  match t with
  | '*' :: rest => (.argument, rest)
  | _ => match t.span Char.isDigit with
    | ([], rest) => (.absent, rest)
    | (ds, rest) => (.given (ds.foldl (fun n c => n * 10 + (c.toNat - 48)) 0), rest)

/-- A precision at the front; a point alone is a precision of zero. -/
def precision (t : Text) : Size × Text :=
  match t with
  | '.' :: rest => match size rest with
    | (.absent, rest) => (.given 0, rest)
    | r => r
  | _ => (.absent, t)

/-- Reads the rest of a directive after its sign and key. -/
def directive? (key : Option Text) (t : Text) : Option (Directive × Text) :=
  let (flags, t) := t.span isFlag
  let (width, t) := size t
  let (precision, t) := precision t
  let t := match t with
    | c :: rest => if c == 'h' || c == 'l' || c == 'L' then rest else c :: rest
    | [] => []
  match t with
  | [] => none
  | letter :: rest => some (⟨key, flags, width, precision, letter⟩, rest)

/-- Reads a directive after its sign. -/
def keyedDirective? (t : Text) : Option (Directive × Text) :=
  match t with
  | '(' :: rest => match key? 0 rest with
    | some (k, rest) => directive? (some k) rest
    | none => none
  | t => directive? none t

/-- The pieces of a template. Two signs in a row stand for one. -/
def pieces? : Nat → Text → Option (List Piece)
  | 0, _ => none
  | _, [] => some []
  | fuel + 1, '%' :: '%' :: t => (pieces? fuel t).map (.literal '%' :: ·)
  | fuel + 1, '%' :: t => match keyedDirective? t with
    | some (d, rest) => (pieces? fuel rest).map (.directive d :: ·)
    | none => none
  | fuel + 1, c :: t => (pieces? fuel t).map (.literal c :: ·)

end Template

/-- The text for one argument in its parts, so that it can be filled up to a width. -/
structure Field where
  sign : Text := []
  lead : Text := []
  body : Text
  /-- Whether zeros may fill it up. -/
  numeric : Bool := false

namespace Field

/-- Fills up to a width: on the right, with zeros after the sign, or with blanks on the left. -/
def fill (f : Field) (flags : Text) (width : Nat) : Text :=
  let front := f.sign ++ f.lead
  let missing := width - (front.length + f.body.length)
  if flags.contains '-' then front ++ f.body ++ List.replicate missing ' '
  else if f.numeric && flags.contains '0' then front ++ List.replicate missing '0' ++ f.body
  else List.replicate missing ' ' ++ front ++ f.body

def signOf (flags : Text) (negative : Bool) : Text :=
  if negative then ['-']
  else if flags.contains '+' then ['+']
  else if flags.contains ' ' then [' ']
  else []

/-- The base of an integer letter, and the mark of that base. -/
def base : Char → Nat × Text
  | 'o' => (8, "0o".toList)
  | 'x' => (16, "0x".toList)
  | 'X' => (16, "0X".toList)
  | _ => (10, [])

/-- An integer with at least so many digits. -/
def ofInt (letter : Char) (flags : Text) (precision : Nat) (i : Int) : Field :=
  let (b, mark) := base letter
  let ds := Nat.toDigits b i.natAbs
  let ds := if letter == 'X' then ds.map Char.toUpper else ds
  { sign := signOf flags (i < 0)
    lead := if flags.contains '#' then mark else []
    body := List.replicate (precision - ds.length) '0' ++ ds
    numeric := true }

/-- The integer for a decimal letter: fractions are cut off. -/
def whole? : Json → Option Int
  | .bool b => some (if b then 1 else 0)
  | .int i => some i
  | .real r => r.toRat?.map fun x => Int.tdiv x.num x.den
  | _ => none

/-- The integer for a letter of another base. -/
def index? : Json → Option Int
  | .bool b => some (if b then 1 else 0)
  | .int i => some i
  | _ => none

open Number

def real? : Json → Option Real64
  | .bool b => some (.finite (if b then 1 else 0))
  | .int i => match Real64.ofInt i with
    | .infinite _ => none
    | r => some r
  | .real r => some r
  | _ => none

/-- Digits and a fraction; `point` keeps the point where the fraction is empty. -/
def pointed (point : Bool) (front fraction : Text) : Text :=
  if fraction.isEmpty then (if point then front ++ ['.'] else front)
  else front ++ ['.'] ++ fraction

/-- So many places after the point. -/
def fixed (point : Bool) (places : Nat) (x : Rat) : Text :=
  let ds := Text.ofNat (roundEven (x * power 10 places)).natAbs
  let ds := List.replicate (places + 1 - ds.length) '0' ++ ds
  pointed point (ds.take (ds.length - places)) (ds.drop (ds.length - places))

/-- So many significant digits, and the power of ten of the first. -/
def leading (count : Nat) (x : Rat) : Decimal :=
  if x = 0 then ⟨List.replicate count '0', 0⟩
  else
    let d := Decimal.significant count x
    { d with digits := d.digits.take count }

def exponent (e : Int) : Text :=
  let size := Text.ofNat e.natAbs
  'e' :: (if e < 0 then '-' else '+') :: (if size.length < 2 then '0' :: size else size)

def scientific (point : Bool) (d : Decimal) : Text :=
  pointed point (d.digits.take 1) (d.digits.drop 1) ++ exponent d.magnitude

/-- So many significant digits, positional where the exponent allows it; `full` keeps the zeros at
the end. -/
def general (full : Bool) (count : Nat) (x : Rat) : Text :=
  let d := leading count x
  let positional := -4 ≤ d.magnitude && d.magnitude < count
  let d := if full then d else d.strip
  if positional then d.positional (if full then ['.'] else []) else scientific full d

/-- A number under one of the letters of fractions. -/
def ofReal (letter : Char) (flags : Text) (precision : Nat) (r : Real64) : Field :=
  let full := flags.contains '#'
  let magnitude (x : Rat) : Text := match letter.toLower with
    | 'f' => fixed full precision x
    | 'e' => scientific full (leading (precision + 1) x)
    | _ => general full (max precision 1) x
  let (negative, body) := match r with
    | .finite x => (decide (x < 0), magnitude (if x < 0 then -x else x))
    | .negZero => (true, magnitude 0)
    | .infinite negative => (negative, "inf".toList)
    | .notANumber => (false, "nan".toList)
  { sign := signOf flags negative
    body := if letter.isUpper then body.map Char.toUpper else body
    numeric := true }

/-- A character outside of ASCII as an escape. -/
def ascii (c : Char) : Text :=
  let n := c.toNat
  if n < 0x80 then [c]
  else if n < 0x100 then '\x5c' :: 'x' :: Json.Display.hexDigits 2 n
  else if n < 0x10000 then '\x5c' :: 'u' :: Json.Display.hexDigits 4 n
  else '\x5c' :: 'U' :: Json.Display.hexDigits 8 n

/-- A value shown with one of the letters of texts. -/
def shown (letter : Char) (v : Json) : Text :=
  if letter == 's' then v.display
  else if letter == 'r' then v.displayNested
  else v.displayNested.flatMap ascii

/-- The character that a value stands for. -/
def char? : Json → Option Char
  | .str [c] => some c
  | .bool b => some (Char.ofNat (if b then 1 else 0))
  | .int i => if 0 ≤ i && i.toNat.isValidChar then some (Char.ofNat i.toNat) else none
  | _ => none

/-- The field for a value under a letter. -/
def ofValue? (letter : Char) (flags : Text) (precision : Option Nat) (v : Json) : Option Field :=
  let least := precision.getD 0
  if ['s', 'r', 'a'].contains letter then
    let t := shown letter v
    some { body := (precision.map t.take).getD t }
  else if letter == 'c' then (char? v).map fun c => { body := [c] }
  else if ['d', 'i', 'u'].contains letter then (whole? v).map (ofInt letter flags least)
  else if ['o', 'x', 'X'].contains letter then (index? v).map (ofInt letter flags least)
  else if ['e', 'E', 'f', 'F', 'g', 'G'].contains letter then
    (real? v).map (ofReal letter flags (precision.getD 6))
  else none

end Field

/-- The arguments that are left. Where keys are looked up, one value at a time is on hand. -/
structure Supply where
  named : Option (List (Text × Json)) := none
  later : List Json

namespace Supply

/-- A single object that is not empty is looked up by keys. -/
def ofList (args : List Json) : Supply :=
  match args with
  | [.obj (f :: fs)] => ⟨some (f :: fs), args⟩
  | _ => ⟨none, args⟩

def next? (s : Supply) : Option (Json × Supply) :=
  match s.later with
  | [] => none
  | v :: later => some (v, { s with later := later })

def lookUp? (s : Supply) (key : Text) : Option Supply := do
  let fields ← s.named
  let f ← fields.find? (·.1 == key)
  return { s with later := [f.2] }

/-- The largest size that a directive may have. -/
def maxSize : Nat := 2147483647

/-- A size that is not too large. -/
def sized? (i : Int) : Option Int := if i.natAbs ≤ maxSize then some i else none

/-- A size, from the directive or from the next argument. -/
def size? (s : Supply) : Size → Option (Option Int × Supply)
  | .absent => some (none, s)
  | .given n => (sized? n).map fun i => (some i, s)
  | .argument => do
    let (v, s) ← s.next?
    let i ← (Field.index? v).bind sized?
    return (some i, s)

/-- Whether all arguments were used, which keys do not demand. -/
def isUsedUp (s : Supply) : Bool := s.named.isSome || s.later.isEmpty

end Supply

namespace Directive

/-- The text of a directive, and the arguments after it. -/
def fill? (d : Directive) (s : Supply) : Option (Text × Supply) := do
  let s ← match d.key with
    | some key => s.lookUp? key
    | none => some s
  let (width, s) ← s.size? d.width
  let (precision, s) ← s.size? d.precision
  let (v, s) ← s.next?
  let f ← Field.ofValue? d.letter d.flags (precision.map Int.toNat) v
  let width := width.getD 0
  let flags := if width < 0 then '-' :: d.flags else d.flags
  return (f.fill flags width.natAbs, s)

end Directive

namespace Template

/-- The text of the pieces. -/
def fill? (s : Supply) : List Piece → Option Text
  | [] => if s.isUsedUp then some [] else none
  | .literal c :: ps => (fill? s ps).map (c :: ·)
  | .directive d :: ps => do
    let (t, s) ← d.fill? s
    let rest ← fill? s ps
    return t ++ rest

/-- The text of a template with its arguments. Without arguments it is taken as it is. -/
def text? (template : Text) (args : List Json) : Option Text :=
  if args.isEmpty then some template
  else (pieces? (template.length + 1) template) >>= fill? (.ofList args)

end Template
end Refinery.Log
