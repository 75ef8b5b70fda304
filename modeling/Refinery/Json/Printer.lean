import Refinery.Json.Basic

/-!
Writing JSON on one line. Only printable ASCII appears in it: every other character is a unicode
escape, as a pair above U+FFFF.
-/

namespace Refinery.Json
namespace Printer

def hexChar (n : Nat) : Char := if n < 10 then Char.ofNat (48 + n) else Char.ofNat (87 + n)

def hex4 (n : Nat) : Text :=
  [hexChar (n / 4096 % 16), hexChar (n / 256 % 16), hexChar (n / 16 % 16), hexChar (n % 16)]

def unitEscape (n : Nat) : Text := '\x5c' :: 'u' :: hex4 n

def charText (c : Char) : Text :=
  let n := c.toNat
  if c == '\x22' then ['\x5c', '\x22']
  else if c == '\x5c' then ['\x5c', '\x5c']
  else if c == '\n' then ['\x5c', 'n']
  else if c == '\r' then ['\x5c', 'r']
  else if c == '\t' then ['\x5c', 't']
  else if c == '\x08' then ['\x5c', 'b']
  else if c == '\x0c' then ['\x5c', 'f']
  else if 0x20 ≤ n && n < 0x7F then [c]
  else if n < 0x10000 then unitEscape n
  else unitEscape (0xD800 + (n - 0x10000) / 0x400) ++ unitEscape (0xDC00 + (n - 0x10000) % 0x400)

def quoted (s : Text) : Text := '\x22' :: (s.flatMap charText ++ ['\x22'])

def realText : Real64 → Text
  | .infinite negative => if negative then "-Infinity".toList else "Infinity".toList
  | .notANumber => "NaN".toList
  | r => r.toText

end Printer

open Printer in
/-- The text of a value, with a blank after each comma and colon. -/
def print : Json → Text
  | null => "null".toList
  | bool b => if b then "true".toList else "false".toList
  | int i => Text.ofInt i
  | real r => realText r
  | str s => quoted s
  | arr items => '[' :: (Text.join ", ".toList (printItems items) ++ [']'])
  | obj fields => '\x7b' :: (Text.join ", ".toList (printFields fields) ++ ['\x7d'])
where
  printItems : List Json → List Text
    | [] => []
    | v :: vs => print v :: printItems vs
  printFields : List (Text × Json) → List Text
    | [] => []
    | (k, v) :: fs => (quoted k ++ ": ".toList ++ print v) :: printFields fs

end Refinery.Json
