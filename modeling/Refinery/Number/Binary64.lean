/-!
Rounding exact numbers. A finite binary64 number is an exact rational, so each operation on such
numbers is the exact operation followed by one rounding. A computation takes its rounding as an
argument: `exact` gives the real-number reading of it, `binary64` what a machine computes.
-/

namespace Refinery.Number

/-- The integer nearest to `n / d`; a half goes to the even neighbour. -/
def nearestEven (n d : Nat) : Nat :=
  let q := n / d
  let r := n % d
  if 2 * r < d then q
  else if d < 2 * r then q + 1
  else if q % 2 = 0 then q else q + 1

/-- The integer nearest to a rational; a half goes to the even neighbour. -/
def roundEven (x : Rat) : Int :=
  let m : Int := nearestEven x.num.natAbs x.den
  if x < 0 then -m else m

/-- A power of a base with an exponent of either sign. -/
def power (base : Nat) (e : Int) : Rat :=
  if 0 ≤ e then mkRat (Nat.pow base e.toNat) 1 else mkRat 1 (Nat.pow base (-e).toNat)

/-- The exponent of the last binary place that a binary64 number of this size keeps. -/
def lastPlace (x : Rat) : Int :=
  let guess : Int := (x.num.natAbs.log2 : Int) - (x.den.log2 : Int)
  let size := if power 2 guess ≤ mkRat x.num.natAbs x.den then guess else guess - 1
  max (size - 52) (-1074)

/-- How the results of arithmetic are rounded. -/
abbrev Rounding := Rat → Rat

def exact : Rounding := id

/-- The nearest number with 53 binary digits, none below 2 ^ -1074; ties go to the even one. -/
def binary64 : Rounding := fun x =>
  if x = 0 then 0
  else
    let unit := power 2 (lastPlace x)
    (roundEven (x / unit) : Rat) * unit

/-- The first magnitude that binary64 cannot hold. -/
def overflow : Rat := power 2 1024

def clamp (low high x : Rat) : Rat := if x < low then low else if high < x then high else x

/-- The largest integer with halves rounded up: 12.5 becomes 13. -/
def halfUp (round : Rounding) (x : Rat) : Int := (round (x + mkRat 1 2)).floor

/-- The nearest number with `places` decimals of the exact value, as the rounding holds it. -/
def toPlaces (round : Rounding) (places : Nat) (x : Rat) : Rat :=
  round ((roundEven (x * power 10 places) : Rat) / power 10 places)

end Refinery.Number
