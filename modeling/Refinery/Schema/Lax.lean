import Refinery.Json.Reader
import Refinery.Schema.Fault

/-!
Reading JSON values into typed fields. The readings are lax: texts that spell a number or a truth
value are taken for it, and so are numbers and truth values that stand for one another.
-/

namespace Refinery.Schema

/-- Reads a value into a field's type. -/
abbrev Reading (α : Type) := Json → Except FaultKind α

def text : Reading Text
  | .str s => .ok s
  | _ => .error .stringType

def falseWords : List String := ["0", "off", "f", "false", "n", "no"]

def trueWords : List String := ["1", "on", "t", "true", "y", "yes"]

/-- The truth value that a word stands for, in capitals or not. -/
def boolWord? (s : Text) : Option Bool :=
  let s := s.map Char.toLower
  if falseWords.any fun w => w.toList == s then some false
  else if trueWords.any fun w => w.toList == s then some true
  else none

def bool : Reading Bool
  | .bool b => .ok b
  | .int i => if i = 0 then .ok false else if i = 1 then .ok true else .error .boolParsing
  | .real r =>
    if r.isZero then .ok false
    else if r == .finite 1 then .ok true
    else .error .boolType
  | .str s => match boolWord? s with
    | some b => .ok b
    | none => .error .boolParsing
  | _ => .error .boolType

/-- The blanks around a number that do not count. -/
def isPadding (c : Char) : Bool := Text.isBlank c && !(28 ≤ c.toNat && c.toNat ≤ 31)

def unpadded (s : Text) : Text :=
  ((s.dropWhile isPadding).reverse.dropWhile isPadding).reverse

def sign (s : Text) : Bool × Text :=
  match s with
  | '-' :: t => (true, t)
  | '+' :: t => (false, t)
  | t => (false, t)

/-- Digits in which single underscores may stand between two of them, without the underscores. -/
def digitsOf? (s : Text) : Option Text :=
  if s.isEmpty then none
  else
    let groups := s.splitOn '_'
    if groups.all fun g => !g.isEmpty && g.all Char.isDigit then some groups.flatten else none

/-- The whole number that a text spells; a fraction of zeros may follow. -/
def intText? (s : Text) : Option Int := do
  let (negative, t) := sign (unpadded s)
  let whole := match Text.cut? ['.'] t with
    | some (front, fraction) => if fraction.all (· == '0') then front else t
    | none => t
  let ds ← digitsOf? whole
  let n : Int := Json.Reader.ofDigits ds
  return if negative then -n else n

/-- The decimal that a text spells: digits, a point among or around them, and an exponent. -/
def decimalText? (negative : Bool) (t : Text) : Option Real64 :=
  let (whole, rest) := Json.Reader.digits t
  let (fraction, rest) := match rest with
    | '.' :: r => Json.Reader.digits r
    | r => ([], r)
  let ds := whole ++ fraction
  if ds.isEmpty then none
  else match rest with
    | [] => some (.ofDecimal negative (Json.Reader.ofDigits ds) (-(fraction.length : Int)))
    | _ => match Json.Reader.exponent? rest with
      | some (e, []) => some (.ofDecimal negative (Json.Reader.ofDigits ds) (e - fraction.length))
      | _ => none

/-- The number that a text spells, infinities and the missing number among them. -/
def plainReal? (s : Text) : Option Real64 :=
  let (negative, t) := sign (unpadded s)
  let word := String.ofList (t.map Char.toLower)
  if word == "inf" || word == "infinity" then some (.infinite negative)
  else if word == "nan" then some .notANumber
  else decimalText? negative t

/-- The number that a text spells, in which single underscores may stand inside. -/
def realText? (s : Text) : Option Real64 :=
  match plainReal? s with
  | some r => some r
  | none =>
    let groups := s.splitOn '_'
    if groups.any (·.isEmpty) then none else plainReal? groups.flatten

/-- The largest magnitude at which a binary64 number is read as an integer. -/
def maxWhole : Rat := Number.power 2 63

/-- The longest text that is read as an integer. -/
def maxIntText : Nat := 4300

def int : Reading Int
  | .bool b => .ok (if b then 1 else 0)
  | .int i => .ok i
  | .real r => match r.toRat? with
    | none => .error .finiteNumber
    | some x =>
      if x.den ≠ 1 then .error .intFromFloat
      else if x < -maxWhole || maxWhole < x then .error .intParsingSize
      else .ok x.num
  | .str s =>
    if maxIntText < (unpadded s).length then .error .intParsingSize
    else match intText? s with
      | some i => .ok i
      | none => .error .intParsing
  | _ => .error .intType

def real : Reading Real64
  | .bool b => .ok (.finite (if b then 1 else 0))
  | .int i => .ok (.ofInt i)
  | .real r => .ok r
  | .str s => match realText? s with
    | some r => .ok r
    | none => .error .floatParsing
  | _ => .error .floatType

/-- A reading of a field that may be null. -/
def optional {α : Type} (r : Reading α) : Reading (Option α)
  | .null => .ok none
  | v => (r v).map some

end Refinery.Schema
