import Refinery.Number.Binary64

/-!
The reach of binary64. A number from nought to a hundred has its last place behind the point, so
that rounding moves it by one at most and its magnitude stays far below `overflow`.
-/

namespace Refinery.Number

theorem clamp_mem {low high : Rat} (h : low ≤ high) (x : Rat) :
    low ≤ clamp low high x ∧ clamp low high x ≤ high := by
  unfold clamp
  split
  · exact ⟨Rat.le_refl, h⟩
  · split
    · exact ⟨h, Rat.le_refl⟩
    · exact ⟨Rat.not_lt.1 ‹_›, Rat.not_lt.1 ‹_›⟩

theorem natAbs_num {x : Rat} (hx : 0 ≤ x) : (x.num.natAbs : Rat) = x * x.den := by
  have hden : (0 : Rat) < x.den := Rat.natCast_pos.2 x.den_pos
  have hself := Rat.mkRat_self x
  rw [Rat.mkRat_eq_div] at hself
  rw [← Rat.intCast_natCast, Int.natAbs_of_nonneg (Rat.num_nonneg.2 hx)]
  grind

theorem roundEven_of_nonneg {x : Rat} (hx : 0 ≤ x) :
    roundEven x = (nearestEven x.num.natAbs x.den : Int) := by
  rw [roundEven, if_neg (Rat.not_lt.2 hx)]

theorem nearestEven_le_succ (n d : Nat) : nearestEven n d ≤ n / d + 1 := by
  simp only [nearestEven]
  repeat' split
  all_goals omega

theorem roundEven_mem {x : Rat} (hx : 0 ≤ x) :
    0 ≤ roundEven x ∧ (roundEven x : Rat) ≤ x + 1 := by
  have hden : (0 : Rat) < x.den := Rat.natCast_pos.2 x.den_pos
  have hdiv : ((x.num.natAbs / x.den * x.den : Nat) : Rat) ≤ x.num.natAbs :=
    Rat.natCast_le_natCast.2 (Nat.div_mul_le_self _ _)
  have hround : ((nearestEven x.num.natAbs x.den : Nat) : Rat) ≤
      ((x.num.natAbs / x.den + 1 : Nat) : Rat) :=
    Rat.natCast_le_natCast.2 (nearestEven_le_succ _ _)
  rw [natAbs_num hx, Rat.natCast_mul] at hdiv
  have hquotient := Rat.le_of_mul_le_mul_right hdiv hden
  rw [roundEven_of_nonneg hx, Rat.intCast_natCast]
  refine ⟨Int.natCast_nonneg _, ?_⟩
  rw [Rat.natCast_add] at hround
  grind

/-- No place from the point on counts more than one. -/
theorem power_mem_of_nonpos {e : Int} (h : e ≤ 0) : 0 < power 2 e ∧ power 2 e ≤ 1 := by
  have hpower : power 2 e = ((2 ^ (-e).toNat : Nat) : Rat)⁻¹ := by
    unfold power
    split
    · next hzero =>
        obtain rfl : e = 0 := Int.le_antisymm h hzero
        exact (Rat.mkRat_one 1).trans (Rat.inv_eq_of_mul_eq_one (Rat.one_mul 1)).symm
    · rw [Rat.mkRat_eq_div, Rat.div_def, Rat.intCast_one, Rat.one_mul]
      rfl
  have hone : (1 : Rat) ≤ ((2 ^ (-e).toNat : Nat) : Rat) :=
    Rat.natCast_le_natCast.2 Nat.one_le_two_pow
  rw [hpower]
  generalize ((2 ^ (-e).toNat : Nat) : Rat) = d at hone
  have hd : 0 < d := by grind
  refine ⟨Rat.inv_pos.2 hd, Rat.le_of_mul_le_mul_right ?_ hd⟩
  rwa [Rat.inv_mul_cancel d (Rat.ne_of_gt hd), Rat.one_mul]

theorem lastPlace_nonpos {x : Rat} (hx : 0 ≤ x) (h : x ≤ 100) : lastPlace x ≤ 0 := by
  have hden : (0 : Rat) < x.den := Rat.natCast_pos.2 x.den_pos
  have hnum : x.num.natAbs ≤ 100 * x.den := by
    refine Rat.natCast_le_natCast.1 ?_
    rw [natAbs_num hx, Rat.natCast_mul]
    exact Rat.mul_le_mul_of_nonneg_right h (Rat.le_of_lt hden)
  have hlog : x.num.natAbs.log2 < x.den.log2 + 8 := by
    have hlt : x.num.natAbs < 2 ^ (x.den.log2 + 8) := by
      have hself := Nat.lt_log2_self (n := x.den)
      rw [show x.den.log2 + 8 = x.den.log2 + 1 + 7 from rfl, Nat.pow_add]
      omega
    by_cases hzero : x.num.natAbs = 0
    · rw [hzero]
      exact Nat.lt_of_lt_of_le (by decide) (Nat.le_add_left 8 _)
    · exact (Nat.log2_lt hzero).2 hlt
  simp only [lastPlace]
  split <;> omega

/-- Rounding takes a number up to a hundred past it by one at most. -/
theorem binary64_mem {x : Rat} (hx : 0 ≤ x) (h : x ≤ 100) : 0 ≤ binary64 x ∧ binary64 x ≤ 101 := by
  unfold binary64
  split
  · decide
  · obtain ⟨hunit, hunit'⟩ := power_mem_of_nonpos (lastPlace_nonpos hx h)
    simp only
    generalize power 2 (lastPlace x) = unit at hunit hunit'
    have hquotient : 0 ≤ x / unit := by
      rw [Rat.div_def]
      exact Rat.mul_nonneg hx (Rat.le_of_lt (Rat.inv_pos.2 hunit))
    obtain ⟨hlow, hhigh⟩ := roundEven_mem hquotient
    have hscaled := Rat.mul_le_mul_of_nonneg_right hhigh (Rat.le_of_lt hunit)
    have hcancel : x / unit * unit = x := Rat.div_mul_cancel (Rat.ne_of_gt hunit)
    refine ⟨Rat.mul_nonneg (Rat.intCast_nonneg.2 hlow) (Rat.le_of_lt hunit), ?_⟩
    grind

end Refinery.Number
