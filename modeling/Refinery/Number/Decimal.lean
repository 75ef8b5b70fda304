import Refinery.Number.Binary64
import Refinery.Text.Basic

/-!
Decimal digits of binary64 numbers: the fewest that read back, and a fixed number of significant
ones.
-/

namespace Refinery.Number

/-- A positive decimal: its digits, the first one not zero, and the power of ten of the first. -/
structure Decimal where
  digits : Text
  magnitude : Int

namespace Decimal

def digitCount (n : Nat) : Nat := (Text.ofNat n).length

/-- The power of ten of the leading digit of a positive number. -/
def magnitudeOf (x : Rat) : Int :=
  let guess : Int := (digitCount x.num.natAbs : Int) - (digitCount x.den : Int)
  if power 10 guess ≤ x then guess else guess - 1

/-- The decimal `coefficient * 10 ^ place`. -/
def ofGrid (coefficient : Nat) (place : Int) : Decimal :=
  ⟨Text.ofNat coefficient, place + digitCount coefficient - 1⟩

/-- The decimal with `count` significant digits that is nearest to a positive number. -/
def significant (count : Nat) (x : Rat) : Decimal :=
  let place := magnitudeOf x - count + 1
  ofGrid (roundEven (x / power 10 place)).natAbs place

/-- The neighbour of a positive number on the grid of `count` digits that rounds back to it. -/
def onGrid? (count : Nat) (x : Rat) : Option Decimal :=
  let place := magnitudeOf x - count + 1
  let unit := power 10 place
  let below := (x / unit).floor.natAbs
  let readsBack (c : Nat) : Bool := decide (binary64 ((c : Rat) * unit) = x)
  match readsBack below, readsBack (below + 1) with
  | true, true => some (significant count x)
  | true, false => some (ofGrid below place)
  | false, true => some (ofGrid (below + 1) place)
  | false, false => none

/-- The shortest decimal that rounds back to a positive binary64 number, nearest among those. -/
def shortest (x : Rat) : Decimal :=
  ((List.range 17).findSome? fun n => onGrid? (n + 1) x).getD (significant 17 x)

/-- The digits without trailing zeros, at least one. -/
def strip (d : Decimal) : Decimal :=
  match Text.trimRightChar '0' d.digits with
  | [] => ⟨['0'], d.magnitude⟩
  | ds => ⟨ds, d.magnitude⟩

/-- Positional notation; `whole` says what follows a number without fraction. -/
def positional (d : Decimal) (whole : Text) : Text :=
  let n : Int := d.digits.length
  let point := d.magnitude + 1
  if point ≤ 0 then
    "0.".toList ++ List.replicate (-point).toNat '0' ++ d.digits
  else if n ≤ point then
    d.digits ++ List.replicate (point - n).toNat '0' ++ whole
  else
    d.digits.take point.toNat ++ ['.'] ++ d.digits.drop point.toNat

/-- One digit, the fraction, and a signed exponent of at least two digits. -/
def scientific (d : Decimal) : Text :=
  let head := d.digits.take 1
  let rest := d.digits.drop 1
  let size := Text.ofNat d.magnitude.natAbs
  let sign := if d.magnitude < 0 then '-' else '+'
  head ++ (if rest.isEmpty then [] else '.' :: rest) ++ ['e', sign] ++
    (if size.length < 2 then '0' :: size else size)

end Decimal
end Refinery.Number
