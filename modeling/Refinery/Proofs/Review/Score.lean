import Mathlib.Algebra.Order.BigOperators.Group.List
import Mathlib.Algebra.Order.Group.MinMax
import Mathlib.Tactic.Ring
import Refinery.Proofs.Number.Binary64
import Refinery.Review.Advice
import Refinery.Review.Score

/-!
Laws of the score. With exact arithmetic it is the hundredth nearest to the sum of the weights, cut
off at 1. More findings, graver ones, more advice and more lines never lower it, and the order of
findings and of advice does not matter.
-/

namespace Refinery

/-- Grades from the lowest up; a name that is no grade of its own stands with the lowest. -/
def Grade.rank : Grade → Nat
  | .high => 2
  | .medium => 1
  | _ => 0

namespace Review

open Number

theorem toPlaces_exact (x : Rat) : toPlaces exact 2 x = roundEven (x * 100) / 100 := rfl

theorem toPlaces_exact_mono {x y : Rat} (h : x ≤ y) : toPlaces exact 2 x ≤ toPlaces exact 2 y := by
  have hround : (roundEven (x * 100) : Rat) ≤ roundEven (y * 100) := by
    exact_mod_cast roundEven_mono (mul_le_mul_of_nonneg_right h (by norm_num))
  rw [toPlaces_exact, toPlaces_exact]
  exact div_le_div_of_nonneg_right hround (by norm_num)

theorem toPlaces_exact_nonneg {x : Rat} (h : 0 ≤ x) : 0 ≤ toPlaces exact 2 x := by
  have hzero : toPlaces exact 2 0 = 0 := by decide +kernel
  exact hzero ▸ toPlaces_exact_mono h

/-- The nearest hundredth is half a hundredth away at most. -/
theorem abs_toPlaces_exact_sub_le (x : Rat) : |toPlaces exact 2 x - x| ≤ 1 / 200 := by
  have hnear := abs_le.1 (abs_sub_roundEven_le (x * 100))
  rw [toPlaces_exact, abs_le]
  constructor <;> linarith [hnear.1, hnear.2]

/-- Between 0 and a greater bound, only the bound cuts a number off that is not negative. -/
theorem clamp_of_nonneg {x : Rat} (h : 0 ≤ x) : clamp 0 1 x = min 1 x := by
  rw [clamp, if_neg (not_lt.2 h)]
  by_cases hone : 1 < x
  · rw [if_pos hone, min_eq_left hone.le]
  · rw [if_neg hone, min_eq_right (not_lt.1 hone)]

theorem weight_eq (g : Grade) : weight g = (10 * g.rank + 5) / 100 := by
  cases g <;> norm_num [weight, Grade.rank]

theorem weight_nonneg (g : Grade) : 0 ≤ weight g := by
  rw [weight_eq]
  positivity

theorem weight_mono {g g' : Grade} (h : g.rank ≤ g'.rank) : weight g ≤ weight g' := by
  have hrank : (g.rank : Rat) ≤ g'.rank := Nat.cast_le.2 h
  rw [weight_eq, weight_eq]
  linarith

theorem complexityWeight_nonneg (c : Complexity) : 0 ≤ complexityWeight c := by
  unfold complexityWeight
  split_ifs <;> norm_num

theorem sizeFactor_nonneg (n : Nat) : 0 ≤ sizeFactor n := by
  unfold sizeFactor
  split_ifs <;> norm_num

theorem sizeFactor_mono {m n : Nat} (h : m ≤ n) : sizeFactor m ≤ sizeFactor n := by
  unfold sizeFactor
  split_ifs <;> norm_num <;> omega

/-- What the findings add. -/
def found (findings : List Finding) : Rat := (findings.map fun f => weight f.severity).sum

/-- What the advice adds: the weight of each piece of high impact, up to the cap. -/
def gain (advice : List Advice) : Rat :=
  min (advice.countP (·.impact == .high) * impactWeight) impactCap

/-- The sum of all weights, shrunk for short texts. -/
def total (findings : List Finding) (advice : List Advice) (c : Complexity) (lineCount : Nat) : Rat :=
  (found findings + complexityWeight c + gain advice) * sizeFactor lineCount

theorem found_nonneg (findings : List Finding) : 0 ≤ found findings := by
  apply List.sum_nonneg
  rw [List.forall_mem_map]
  exact fun f _ => weight_nonneg f.severity

theorem found_insert (fs gs : List Finding) (f : Finding) :
    found (fs ++ f :: gs) = found (fs ++ gs) + weight f.severity := by
  simp only [found, List.map_append, List.map_cons, List.sum_append, List.sum_cons]
  ring

theorem found_perm {fs gs : List Finding} (h : fs.Perm gs) : found fs = found gs :=
  (h.map _).sum_eq

theorem gain_nonneg (advice : List Advice) : 0 ≤ gain advice := by
  apply le_min
  · exact mul_nonneg (Nat.cast_nonneg _) (by norm_num [impactWeight])
  · norm_num [impactCap]

theorem gain_mono {as bs : List Advice}
    (h : as.countP (·.impact == .high) ≤ bs.countP (·.impact == .high)) : gain as ≤ gain bs := by
  apply min_le_min_right
  exact mul_le_mul_of_nonneg_right (Nat.cast_le.2 h) (by norm_num [impactWeight])

theorem gain_insert (as bs : List Advice) (a : Advice) : gain (as ++ bs) ≤ gain (as ++ a :: bs) := by
  apply gain_mono
  exact ((List.sublist_cons_self a bs).append_left as).countP_le

theorem gain_perm {as bs : List Advice} (h : as.Perm bs) : gain as = gain bs := by
  rw [gain, gain, h.countP_eq]

theorem total_nonneg (findings : List Finding) (advice : List Advice) (c : Complexity) (n : Nat) :
    0 ≤ total findings advice c n := by
  apply mul_nonneg
  · exact add_nonneg (add_nonneg (found_nonneg findings) (complexityWeight_nonneg c))
      (gain_nonneg advice)
  · exact sizeFactor_nonneg n

theorem total_mono {fs gs : List Finding} {as bs : List Advice} {m n : Nat} (c : Complexity)
    (hfound : found fs ≤ found gs) (hgain : gain as ≤ gain bs) (hlines : m ≤ n) :
    total fs as c m ≤ total gs bs c n := by
  apply mul_le_mul
  · exact add_le_add (add_le_add_left hfound _) hgain
  · exact sizeFactor_mono hlines
  · exact sizeFactor_nonneg m
  · exact add_nonneg (add_nonneg (found_nonneg gs) (complexityWeight_nonneg c)) (gain_nonneg bs)

theorem rawScore_exact (findings : List Finding) (advice : List Advice) (c : Complexity) :
    rawScore exact findings advice c = found findings + complexityWeight c + gain advice := by
  have hfound : (findings.map fun f => exact (weight f.severity)).foldl
      (fun s w => exact (s + w)) 0 = found findings := List.sum_eq_foldl.symm
  have hcount : (mkRat (advice.filter (·.impact == .high)).length 1 : Rat) =
      advice.countP (·.impact == .high) := by
    rw [Rat.mkRat_eq_div, List.countP_eq_length_filter]
    simp
  have hgain : ∀ x : Rat, (if x < impactCap then x else impactCap) = min x impactCap := by
    intro x
    by_cases hx : x < impactCap
    · rw [if_pos hx, min_eq_left hx.le]
    · rw [if_neg hx, min_eq_right (not_lt.1 hx)]
  rw [rawScore, hfound, hcount]
  exact congrArg (found findings + complexityWeight c + ·) (hgain _)

/-- With exact arithmetic the score is the nearest hundredth of the sum, cut off at 1. -/
theorem score_exact (findings : List Finding) (advice : List Advice) (c : Complexity) (n : Nat) :
    score exact findings advice c n = min 1 (toPlaces exact 2 (total findings advice c n)) := by
  have hnonneg := toPlaces_exact_nonneg (total_nonneg findings advice c n)
  rw [← clamp_of_nonneg hnonneg, total, ← rawScore_exact]
  rfl

theorem score_mono {fs gs : List Finding} {as bs : List Advice} {c : Complexity} {m n : Nat}
    (h : total fs as c m ≤ total gs bs c n) : score exact fs as c m ≤ score exact gs bs c n := by
  rw [score_exact, score_exact]
  exact min_le_min_left 1 (toPlaces_exact_mono h)

/-- **Laws of the score.** With exact arithmetic it lies between 0 and 1 and is within half a
hundredth of the sum of the weights, cut off at 1. One more finding or piece of advice at any place,
a graver finding and more lines never lower it, and the order of findings and of advice does not
matter. -/
theorem score_laws (findings : List Finding) (advice : List Advice) (c : Complexity) (n : Nat) :
    let s := score exact
    (0 ≤ s findings advice c n ∧ s findings advice c n ≤ 1) ∧
    |s findings advice c n - min 1 (total findings advice c n)| ≤ 1 / 200 ∧
    (∀ fs gs f, findings = fs ++ gs → s findings advice c n ≤ s (fs ++ f :: gs) advice c n) ∧
    (∀ fs gs f g, findings = fs ++ f :: gs → f.severity.rank ≤ g.rank →
      s findings advice c n ≤ s (fs ++ { f with severity := g } :: gs) advice c n) ∧
    (∀ as bs a, advice = as ++ bs → s findings advice c n ≤ s findings (as ++ a :: bs) c n) ∧
    (∀ m, n ≤ m → s findings advice c n ≤ s findings advice c m) ∧
    ∀ fs as, findings.Perm fs → advice.Perm as → s fs as c n = s findings advice c n := by
  intro s
  refine ⟨⟨?_, ?_⟩, ?_, ?_, ?_, ?_, ?_, ?_⟩
  · simp only [s, score_exact]
    exact le_min zero_le_one (toPlaces_exact_nonneg (total_nonneg findings advice c n))
  · simp only [s, score_exact]
    exact min_le_left 1 _
  · have hnear := abs_toPlaces_exact_sub_le (total findings advice c n)
    simp only [s, score_exact]
    calc _ ≤ max |(1 : Rat) - 1| |toPlaces exact 2 (total findings advice c n) -
          total findings advice c n| := abs_min_sub_min_le_max 1 _ 1 _
      _ ≤ 1 / 200 := max_le (by norm_num) hnear
  · rintro fs gs f rfl
    apply score_mono
    apply total_mono c _ (le_refl _) (le_refl n)
    rw [found_insert]
    exact le_add_of_nonneg_right (weight_nonneg f.severity)
  · rintro fs gs f g rfl hgrade
    apply score_mono
    apply total_mono c _ (le_refl _) (le_refl n)
    rw [found_insert, found_insert]
    exact add_le_add_right (weight_mono hgrade) _
  · rintro as bs a rfl
    apply score_mono
    exact total_mono c (le_refl _) (gain_insert as bs a) (le_refl n)
  · intro m hm
    apply score_mono
    exact total_mono c (le_refl _) (le_refl _) hm
  · intro fs as hfs has
    simp only [s, score_exact, total, found_perm hfs, gain_perm has]

/-- A third finding, a graver one, a second piece of advice and five more lines; the two findings
swapped. -/
theorem score_laws_of_two_findings :
    let lookup : Finding := ⟨.inefficientDataStructure, [], .low, none⟩
    let nesting : Finding := ⟨.excessiveNesting, [], .medium, none⟩
    let advice := Advice.ofKinds [.excessiveNesting]
    let c : Complexity := "O(n)".toList
    let s := score exact
    lookup.severity.rank ≤ Grade.high.rank ∧ 4 ≤ 9 ∧
      s [lookup, nesting] advice c 4 ≤ s [lookup, lookup, nesting] advice c 4 ∧
      s [lookup, nesting] advice c 4 ≤ s [{ lookup with severity := .high }, nesting] advice c 4 ∧
      s [lookup, nesting] advice c 4 ≤ s [lookup, nesting] (Advice.hashing c :: advice) c 4 ∧
      s [lookup, nesting] advice c 4 ≤ s [lookup, nesting] advice c 9 ∧
      s [nesting, lookup] advice c 4 = s [lookup, nesting] advice c 4 := by
  intro lookup nesting advice c s
  have hgrade : lookup.severity.rank ≤ Grade.high.rank := by decide
  have hlines : 4 ≤ 9 := by decide
  obtain ⟨-, -, hinsert, hraise, hadvise, hgrow, horder⟩ := score_laws [lookup, nesting] advice c 4
  exact ⟨hgrade, hlines, hinsert [lookup] [nesting] lookup rfl,
    hraise [] [nesting] lookup .high rfl hgrade, hadvise [] advice (Advice.hashing c) rfl,
    hgrow 9 hlines, horder [nesting, lookup] advice (List.Perm.swap nesting lookup []) (List.Perm.refl _)⟩

end Review
end Refinery
