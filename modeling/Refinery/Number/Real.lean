import Refinery.Number.Decimal
import Refinery.Number.Reach

/-!
Binary64 values with their exceptional members, and the two ways they are written: in full, with
the fewest digits that read back, and in general form, with six significant digits.
-/

namespace Refinery

/-- A binary64 value. A zero keeps its sign. -/
inductive Real64 where
  | finite (value : Rat)
  | negZero
  | infinite (negative : Bool)
  | notANumber
  deriving DecidableEq, Inhabited

namespace Real64
open Number

/-- The value nearest to a rational; magnitudes that do not fit become infinite. -/
def ofRat (x : Rat) : Real64 :=
  let y := binary64 x
  if overflow ≤ y then infinite false
  else if y ≤ -overflow then infinite true
  else if y = 0 && x < 0 then negZero
  else finite y

def ofInt (i : Int) : Real64 := ofRat i

/-- Reads `coefficient * 10 ^ exponent`. -/
def ofDecimal (negative : Bool) (coefficient : Nat) (exponent : Int) : Real64 :=
  let size := exponent + Decimal.digitCount coefficient
  if coefficient = 0 || size < -400 then (if negative then negZero else finite 0)
  else if 400 < size then infinite negative
  else
    let x := (coefficient : Rat) * power 10 exponent
    ofRat (if negative then -x else x)

def toRat? : Real64 → Option Rat
  | finite x => some x
  | negZero => some 0
  | _ => none

def isZero : Real64 → Bool
  | finite x => x = 0
  | negZero => true
  | _ => false

def isFinite (r : Real64) : Bool := r.toRat?.isSome

/-- Whether a value lies above a number. No comparison with not-a-number holds. -/
def exceeds : Real64 → Rat → Bool
  | finite y, x => x < y
  | negZero, x => x < 0
  | infinite negative, _ => !negative
  | notANumber, _ => false

def hundredfold : Real64 → Real64
  | finite x => ofRat (x * 100)
  | negZero => negZero
  | infinite negative => infinite negative
  | notANumber => notANumber

/-- A value from nought to one. -/
def IsShare (r : Real64) : Prop := ∃ x, r.toRat? = some x ∧ 0 ≤ x ∧ x ≤ 1

/-- Writes a sign and a magnitude in the given manner. -/
def signed (x : Rat) (write : Rat → Text) : Text :=
  if x < 0 then '-' :: write (-x) else write x

/-- Shortest digits; positional for magnitudes from 1e-4 up to 1e16, always with a fraction. -/
def toText : Real64 → Text
  | finite x => signed x fun y =>
    if y = 0 then "0.0".toList
    else
      let d := (Decimal.shortest y).strip
      if -4 ≤ d.magnitude && d.magnitude < 16 then d.positional ".0".toList else d.scientific
  | negZero => "-0.0".toList
  | infinite negative => if negative then "-inf".toList else "inf".toList
  | notANumber => "nan".toList

/-- Six significant digits without trailing zeros; positional from 1e-4 up to 1e6. -/
def general : Real64 → Text
  | finite x => signed x fun y =>
    if y = 0 then ['0']
    else
      let d := (Decimal.significant 6 y).strip
      if -4 ≤ d.magnitude && d.magnitude < 6 then d.positional [] else d.scientific
  | negZero => "-0".toList
  | infinite negative => if negative then "-inf".toList else "inf".toList
  | notANumber => "nan".toList

/-- Why a number has no nearest integer. -/
inductive Fault where
  | infinite
  | notANumber

/-- Halves rounded up, in binary64 arithmetic. -/
def halfUp : Real64 → Except Fault Int
  | finite x => .ok (Number.halfUp binary64 x)
  | negZero => .ok (Number.halfUp binary64 0)
  | infinite _ => .error .infinite
  | notANumber => .error .notANumber

theorem ofRat_of_le_hundred {x : Rat} (hx : 0 ≤ x) (h : x ≤ 100) :
    ofRat x = finite (binary64 x) := by
  obtain ⟨hlow, hhigh⟩ := binary64_mem hx h
  have hreach : (101 : Rat) < overflow := by decide +kernel
  have hnonneg : decide (x < 0) = false := decide_eq_false (Rat.not_lt.2 hx)
  simp only [ofRat, hnonneg, Bool.and_false, Bool.false_eq_true, if_false]
  rw [if_neg (by grind), if_neg (by grind)]

theorem halfUp_of_toRat? {r : Real64} {x : Rat} (h : r.toRat? = some x) :
    r.halfUp = .ok (Number.halfUp binary64 x) := by
  cases r with
  | finite y => rw [halfUp, Option.some.inj h]
  | negZero => rw [halfUp, ← Option.some.inj h]
  | infinite _ => cases h
  | notANumber => cases h

theorem exists_halfUp_iff {r : Real64} : (∃ i, r.halfUp = .ok i) ↔ r.isFinite = true := by
  cases r <;> simp [halfUp, isFinite, toRat?]

theorem halfUp_eq_infinite_iff {r : Real64} :
    r.halfUp = .error .infinite ↔ ∃ negative, r = infinite negative := by
  cases r <;> simp [halfUp]

theorem halfUp_eq_notANumber_iff {r : Real64} :
    r.halfUp = .error .notANumber ↔ r = notANumber := by
  cases r <;> simp [halfUp]

/-- A hundred times a share is finite. -/
theorem IsShare.hundredfold {r : Real64} (h : r.IsShare) :
    ∃ x : Rat, 0 ≤ x ∧ x ≤ 100 ∧ r.hundredfold.toRat? = some (binary64 x) := by
  obtain ⟨x, hr, h₀, h₁⟩ := h
  cases r with
  | finite y =>
      obtain rfl : y = x := Option.some.inj hr
      have hlow : 0 ≤ y * 100 := Rat.mul_nonneg h₀ (by decide)
      have hhigh : y * 100 ≤ 100 := by grind
      refine ⟨y * 100, hlow, hhigh, ?_⟩
      rw [Real64.hundredfold, ofRat_of_le_hundred hlow hhigh, toRat?]
  | negZero => exact ⟨0, Rat.le_refl, by decide, rfl⟩
  | infinite _ => cases hr
  | notANumber => cases hr

end Real64
end Refinery
