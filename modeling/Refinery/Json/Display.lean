import Refinery.Json.Basic
import Refinery.Text.Printable

/-!
The text of a JSON value inside a message: words with a capital for constants, strings in single
quotes unless they hold one and no double quote, a string on its own without quotes.
-/

namespace Refinery.Json
namespace Display

def hexDigits (width n : Nat) : Text :=
  let ds := Nat.toDigits 16 n
  List.replicate (width - ds.length) '0' ++ ds

/-- A character inside quotes of the given kind. -/
def charText (quote c : Char) : Text :=
  let n := c.toNat
  if c == quote || c == '\x5c' then ['\x5c', c]
  else if c == '\n' then ['\x5c', 'n']
  else if c == '\r' then ['\x5c', 'r']
  else if c == '\t' then ['\x5c', 't']
  else if Text.isPrintable c then [c]
  else if n < 0x100 then '\x5c' :: 'x' :: hexDigits 2 n
  else if n < 0x10000 then '\x5c' :: 'u' :: hexDigits 4 n
  else '\x5c' :: 'U' :: hexDigits 8 n

def quoted (s : Text) : Text :=
  let quote := if s.contains '\'' && !s.contains '\x22' then '\x22' else '\''
  quote :: (s.flatMap (charText quote) ++ [quote])

end Display

open Display in
/-- The text of a value nested in another. -/
def displayNested : Json → Text
  | null => "None".toList
  | bool b => if b then "True".toList else "False".toList
  | int i => Text.ofInt i
  | real r => r.toText
  | str s => quoted s
  | arr items => '[' :: (Text.join ", ".toList (displayItems items) ++ [']'])
  | obj fields => '\x7b' :: (Text.join ", ".toList (displayFields fields) ++ ['\x7d'])
where
  displayItems : List Json → List Text
    | [] => []
    | v :: vs => displayNested v :: displayItems vs
  displayFields : List (Text × Json) → List Text
    | [] => []
    | (k, v) :: fs => (quoted k ++ ": ".toList ++ displayNested v) :: displayFields fs

/-- The text of a value in a message. -/
def display : Json → Text
  | str s => s
  | v => displayNested v

end Refinery.Json
