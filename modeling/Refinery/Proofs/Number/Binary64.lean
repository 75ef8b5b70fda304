import Mathlib.Algebra.Order.Field.Power
import Mathlib.Data.Rat.Cast.Order
import Mathlib.Tactic.Linarith
import Mathlib.Tactic.NormNum
import Mathlib.Tactic.Positivity
import Mathlib.Tactic.Ring
import Refinery.Number.Reach

/-!
Bounds of rounding. Rounding to an integer moves a number by a half at most and keeps the order of
numbers. Rounding to binary64 does not carry a number past one that binary64 can hold: a multiple of
a power of two bounds the result if it bounds the argument and the argument is so small that its
last place is not above that power.
-/

namespace Refinery.Number

theorem nearestEven_le {n d m : Nat} (hd : 0 < d) (h : n ≤ m * d) : nearestEven n d ≤ m := by
  have hq : n / d ≤ m := Nat.div_le_of_le_mul (by rwa [Nat.mul_comm])
  rcases Nat.lt_or_eq_of_le hq with hlt | heq
  · rw [nearestEven]
    split_ifs <;> omega
  · have hr : n % d = 0 := by
      have hdiv := Nat.div_add_mod n d
      rw [heq, Nat.mul_comm] at hdiv
      omega
    rw [nearestEven, hr]
    simpa [hd] using hq

theorem le_nearestEven {n d m : Nat} (hd : 0 < d) (h : m * d ≤ n) : m ≤ nearestEven n d := by
  have hq : m ≤ n / d := (Nat.le_div_iff_mul_le hd).2 h
  rw [nearestEven]
  split_ifs <;> omega

theorem nearestEven_near {n d : Nat} (hd : 0 < d) :
    2 * n ≤ (2 * nearestEven n d + 1) * d ∧ 2 * nearestEven n d * d ≤ 2 * n + d := by
  have hn := Nat.div_add_mod n d
  have hr := Nat.mod_lt n hd
  have habove : ∀ m, (2 * m + 1) * d = 2 * (d * m) + d := fun m => by ring
  have hbelow : ∀ m, 2 * m * d = 2 * (d * m) := fun m => by ring
  have hnext := Nat.mul_add_one d (n / d)
  rw [habove, hbelow, nearestEven]
  split_ifs <;> omega

theorem roundEven_le {x : Rat} {m : Nat} (hx : 0 ≤ x) (h : x ≤ m) : roundEven x ≤ m := by
  rw [roundEven_of_nonneg hx]
  have hn : (x.num.natAbs : Rat) ≤ ((m * x.den : Nat) : Rat) := by
    rw [natAbs_num hx, Nat.cast_mul]
    exact mul_le_mul_of_nonneg_right h (Nat.cast_nonneg _)
  exact_mod_cast nearestEven_le x.den_pos (Nat.cast_le.1 hn)

theorem le_roundEven {x : Rat} {m : Nat} (h : (m : Rat) ≤ x) : (m : Int) ≤ roundEven x := by
  have hx : 0 ≤ x := (Nat.cast_nonneg m).trans h
  rw [roundEven_of_nonneg hx]
  have hn : ((m * x.den : Nat) : Rat) ≤ (x.num.natAbs : Rat) := by
    rw [natAbs_num hx, Nat.cast_mul]
    exact mul_le_mul_of_nonneg_right h (Nat.cast_nonneg _)
  exact_mod_cast le_nearestEven x.den_pos (Nat.cast_le.1 hn)

/-- Rounding goes the same way on both sides of zero. -/
theorem roundEven_neg {x : Rat} (hx : x < 0) : roundEven x = -roundEven (-x) := by
  rw [roundEven_of_nonneg (neg_nonneg.2 hx.le), roundEven, if_pos hx, Rat.neg_num, Int.natAbs_neg,
    Rat.neg_den]

/-- Rounding moves a number by a half at most. -/
theorem abs_sub_roundEven_le (x : Rat) : |x - roundEven x| ≤ 1 / 2 := by
  have hnonneg : ∀ {y : Rat}, 0 ≤ y → |y - roundEven y| ≤ 1 / 2 := by
    intro y hy
    have hden : (0 : Rat) < y.den := Nat.cast_pos.2 y.den_pos
    obtain ⟨habove, hbelow⟩ := nearestEven_near (n := y.num.natAbs) y.den_pos
    have habove : 2 * (y * y.den) ≤ (2 * nearestEven y.num.natAbs y.den + 1) * y.den := by
      rw [← natAbs_num hy]
      exact_mod_cast habove
    have hbelow : 2 * (nearestEven y.num.natAbs y.den : Rat) * y.den ≤ 2 * (y * y.den) + y.den := by
      rw [← natAbs_num hy]
      exact_mod_cast hbelow
    have hhigh : 2 * y ≤ 2 * nearestEven y.num.natAbs y.den + 1 :=
      le_of_mul_le_mul_right (by linarith) hden
    have hlow : 2 * (nearestEven y.num.natAbs y.den : Rat) ≤ 2 * y + 1 :=
      le_of_mul_le_mul_right (by linarith) hden
    rw [roundEven_of_nonneg hy, Int.cast_natCast, abs_le]
    constructor <;> linarith
  rcases le_or_gt 0 x with hx | hx
  · exact hnonneg hx
  · have hflip : x - (-roundEven (-x) : Int) = -(-x - roundEven (-x)) := by
      push_cast
      ring
    rw [roundEven_neg hx, hflip, abs_neg]
    exact hnonneg (neg_nonneg.2 hx.le)

/-- A greater number is not rounded to a smaller one: the two would be a half away from their
results on either side, and so the same. -/
theorem roundEven_mono {x y : Rat} (hxy : x ≤ y) : roundEven x ≤ roundEven y := by
  by_contra hlt
  have hstep : (roundEven y : Rat) + 1 ≤ roundEven x := by exact_mod_cast not_le.1 hlt
  have hx := (abs_le.1 (abs_sub_roundEven_le x)).1
  have hy := (abs_le.1 (abs_sub_roundEven_le y)).2
  have heq : x = y := le_antisymm hxy (by linarith)
  exact hlt (heq ▸ le_refl (roundEven x))

theorem power_two (e : Int) : power 2 e = (2 : Rat) ^ e := by
  rw [power]
  split
  · next h =>
      lift e to Nat using h
      rw [Rat.mkRat_eq_div]
      simp
  · next h =>
      obtain ⟨n, hn⟩ := Int.exists_eq_neg_ofNat (not_le.1 h).le
      rw [hn, Rat.mkRat_eq_div]
      simp

/-- The last place lies 52 places below one that the number reaches, if that is not too low. -/
theorem exists_lastPlace {x : Rat} (hx : 0 < x) :
    ∃ size : Int, lastPlace x = max (size - 52) (-1074) ∧ (2 : Rat) ^ size ≤ x := by
  have hn : x.num.natAbs ≠ 0 := Int.natAbs_ne_zero.2 (Rat.num_pos.2 hx).ne'
  have hself : mkRat x.num.natAbs x.den = x := by
    rw [Rat.mkRat_eq_div, Int.cast_natCast, natAbs_num hx.le,
      mul_div_cancel_right₀ _ (Nat.cast_ne_zero.2 x.den_nz)]
  rw [lastPlace, hself]
  set guess : Int := (x.num.natAbs.log2 : Int) - (x.den.log2 : Int) with hguess
  refine ⟨_, rfl, ?_⟩
  split
  · next h => rwa [power_two] at h
  · have hnum : (2 : Rat) ^ x.num.natAbs.log2 ≤ x.num.natAbs := by
      exact_mod_cast Nat.log2_self_le hn
    have hden : (x.den : Rat) ≤ 2 ^ (x.den.log2 + 1) := by
      exact_mod_cast (Nat.lt_log2_self (n := x.den)).le
    have hpos : (0 : Rat) < x.den := Nat.cast_pos.2 x.den_pos
    have hexp : guess - 1 = (x.num.natAbs.log2 : Int) - ((x.den.log2 + 1 : Nat) : Int) := by
      push_cast
      omega
    rw [natAbs_num hx.le] at hnum
    rw [hexp, zpow_sub₀ two_ne_zero, zpow_natCast, zpow_natCast, div_le_iff₀ (by positivity)]
    exact hnum.trans (mul_le_mul_of_nonneg_left hden hx.le)

/-- A small number has its last place low. -/
theorem lastPlace_le {x : Rat} {p : Int} (hx : 0 < x) (hp : -1074 ≤ p)
    (h : x < (2 : Rat) ^ (p + 53)) : lastPlace x ≤ p := by
  obtain ⟨size, hlast, hsize⟩ := exists_lastPlace hx
  have hlt : size < p + 53 := (zpow_lt_zpow_iff_right₀ one_lt_two).1 (hsize.trans_lt h)
  rw [hlast]
  exact max_le (by omega) hp

theorem binary64_eq {x : Rat} (hx : 0 < x) :
    binary64 x = (roundEven (x / 2 ^ lastPlace x) : Rat) * 2 ^ lastPlace x := by
  rw [binary64, if_neg hx.ne', power_two]

/-- A multiple of a power of two is one of every lower power. -/
private theorem exists_multiple (m : Nat) {p q : Int} (h : q ≤ p) :
    ∃ n : Nat, (m : Rat) * 2 ^ p = n * 2 ^ q := by
  obtain ⟨k, hk⟩ := Int.eq_ofNat_of_zero_le (sub_nonneg.2 h)
  refine ⟨m * 2 ^ k, ?_⟩
  have hp : p = k + q := by omega
  rw [hp, zpow_add₀ two_ne_zero, zpow_natCast]
  push_cast
  rw [mul_assoc]

theorem binary64_nonneg {x : Rat} (hx : 0 ≤ x) : 0 ≤ binary64 x := by
  rcases hx.eq_or_lt with rfl | hx
  · rfl
  · have hr : ((0 : Nat) : Int) ≤ roundEven (x / 2 ^ lastPlace x) :=
      le_roundEven (by rw [Nat.cast_zero]; positivity)
    rw [binary64_eq hx]
    exact mul_nonneg (by exact_mod_cast hr) (by positivity)

/-- Rounding stays below a multiple of a power of two. -/
theorem binary64_le {x : Rat} {m : Nat} {p : Int} (hp : -1074 ≤ p) (hx : 0 ≤ x)
    (hsmall : x < (2 : Rat) ^ (p + 53)) (h : x ≤ m * 2 ^ p) : binary64 x ≤ m * 2 ^ p := by
  rcases hx.eq_or_lt with rfl | hx
  · exact h
  · obtain ⟨n, hn⟩ := exists_multiple m (lastPlace_le hx hp hsmall)
    have hunit : (0 : Rat) < 2 ^ lastPlace x := by positivity
    rw [hn] at h ⊢
    have hr : roundEven (x / 2 ^ lastPlace x) ≤ n :=
      roundEven_le (by positivity) ((div_le_iff₀ hunit).2 h)
    rw [binary64_eq hx]
    exact mul_le_mul_of_nonneg_right (by exact_mod_cast hr) hunit.le

/-- Rounding keeps a number at one or above; a great one is a multiple of its last place. -/
theorem one_le_binary64 {x : Rat} (h : 1 ≤ x) : 1 ≤ binary64 x := by
  have hx : 0 < x := one_pos.trans_le h
  have hunit : (0 : Rat) < 2 ^ lastPlace x := by positivity
  rw [binary64_eq hx]
  by_cases hlow : lastPlace x ≤ 0
  · obtain ⟨n, hn⟩ := exists_multiple 1 hlow
    have hone : (n : Rat) * 2 ^ lastPlace x = 1 := by simpa using hn.symm
    have hr : (n : Int) ≤ roundEven (x / 2 ^ lastPlace x) :=
      le_roundEven ((le_div_iff₀ hunit).2 (hone.trans_le h))
    rw [← hone]
    exact mul_le_mul_of_nonneg_right (by exact_mod_cast hr) hunit.le
  · obtain ⟨size, hlast, hsize⟩ := exists_lastPlace hx
    have hle : (2 : Rat) ^ lastPlace x ≤ x :=
      (zpow_le_zpow_right₀ one_le_two (by omega)).trans hsize
    have hr : ((1 : Nat) : Int) ≤ roundEven (x / 2 ^ lastPlace x) :=
      le_roundEven (by rwa [Nat.cast_one, le_div_iff₀ hunit, one_mul])
    exact one_le_mul_of_one_le_of_one_le (by exact_mod_cast hr)
      (one_le_zpow₀ one_le_two (not_le.1 hlow).le)

/-- A rounding that takes no number below zero and no small number past a quarter. -/
structure KeepsQuarters (round : Rounding) : Prop where
  nonneg : ∀ {x : Rat}, 0 ≤ x → 0 ≤ round x
  le : ∀ {x : Rat} {m : Nat}, m ≤ 1000 → 0 ≤ x → x ≤ m / 4 → round x ≤ m / 4

theorem keepsQuarters_exact : KeepsQuarters exact := ⟨id, fun _ _ h => h⟩

theorem keepsQuarters_binary64 : KeepsQuarters binary64 := by
  refine ⟨binary64_nonneg, fun {x m} hm hx h => ?_⟩
  have hquarter : (m : Rat) / 4 = m * 2 ^ (-2 : Int) := by
    rw [div_eq_mul_inv]
    norm_num
  have hsmall : x < (2 : Rat) ^ (-2 + 53 : Int) := by
    have hm' : (m : Rat) ≤ 1000 := by exact_mod_cast hm
    norm_num
    linarith
  rw [hquarter] at h ⊢
  exact binary64_le (by norm_num) hx hsmall h

end Refinery.Number
