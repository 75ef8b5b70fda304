import Refinery.Text.Basic

/-!
Matching without regard to case. Two characters match when they fold to the same one; beside the
ASCII capitals the long s, the Kelvin sign and the two Turkish forms of i fold to ASCII letters.
-/

namespace Refinery.Text

/-- The ASCII letter that a character matches, or the character itself. -/
def foldChar (c : Char) : Char :=
  if c == '\u017f' then 's'
  else if c == '\u212a' then 'k'
  else if c == '\u0131' || c == '\u0130' then 'i'
  else c.toLower

/-- The text as it is matched against lower-case ASCII words. -/
def folded (t : Text) : Text := t.map foldChar

end Refinery.Text
