import Mathlib.Tactic.Ring
import Refinery.Proofs.Answer.Unchanged

/-!
Laws of likeness. The score of two texts is taken on their filled lines, is the same either way
round, and lies between none and a hundred, which it is for equal lines. No more lines match than
the shorter list has, so the score is at most the square of the ratio of the lengths; code that is
accepted as a change therefore has at least half and at most twice as many filled lines as the text,
unless the algorithm is one that gets restructured.
-/

namespace Refinery

namespace Similarity

open Number Text

theorem sameLine_comm (a b : Text) : sameLine a b = sameLine b a := by
  rw [sameLine, sameLine, BEq.comm (a := a), Bool.and_comm (decide (frontLength < a.length)),
    Bool.or_comm (hasPart (b.take frontLength) a)]

/-- As many lines of one list match the other as the other way round. -/
theorem matching_comm (before after : List Text) :
    matching before after = matching after before := by
  rw [matching, matching, ← List.zip_swap after before, List.filter_map, List.length_map]
  refine congrArg List.length (List.filter_congr fun pair _ => ?_)
  exact sameLine_comm pair.2 pair.1

theorem matching_le_min (before after : List Text) :
    matching before after ≤ min before.length after.length := by
  rw [matching, ← List.length_zip]
  exact List.length_filter_le _ _

/-- The score is the same either way round, whatever the rounding. -/
theorem percentOf_comm (round : Rounding) (before after : List Text) :
    percentOf round before after = percentOf round after before := by
  rw [percentOf, percentOf, Bool.or_comm, max_comm, min_comm, matching_comm]

/-- A share weighted by a ratio, in per cent. -/
def weighted (round : Rounding) (share ratio : Rat) : Int :=
  halfUp round (round (round (round share * round ratio) * 100))

theorem percentOf_eq {before after : List Text} (hbefore : before ≠ []) (hafter : after ≠ [])
    (round : Rounding) : percentOf round before after =
      weighted round (mkRat (matching before after) (max before.length after.length))
        (mkRat (min before.length after.length : Nat) (max before.length after.length)) := by
  rw [percentOf, if_neg (by simp [hbefore, hafter]), Nat.cast_min]
  rfl

theorem percentOf_eq_zero {before after : List Text} (h : before = [] ∨ after = [])
    (round : Rounding) : percentOf round before after = 0 := by
  rw [percentOf, if_pos (by simpa using h)]

variable {round : Rounding} {share ratio : Rat}

theorem weighted_nonneg (hround : KeepsQuarters round) (hshare : 0 ≤ share) (hratio : 0 ≤ ratio) :
    0 ≤ weighted round share ratio := by
  have hhalf : (0 : Rat) ≤ mkRat 1 2 := by rw [Rat.mkRat_eq_div]; norm_num
  have hproduct := hround.nonneg (mul_nonneg (hround.nonneg hshare) (hround.nonneg hratio))
  have hpercent := hround.nonneg (mul_nonneg hproduct (by norm_num : (0 : Rat) ≤ 100))
  exact Rat.le_floor_iff.2 (hround.nonneg (add_nonneg hpercent hhalf))

/-- If both factors are at most some halves, the product is at most as many quarters, squared. Each
rounding on the way keeps to a bound that is a number of quarters. -/
theorem weighted_le (hround : KeepsQuarters round) {m : Nat} (hm : m ≤ 2) (hshare : 0 ≤ share)
    (hratio : 0 ≤ ratio) (hshare' : share ≤ m / 2) (hratio' : ratio ≤ m / 2) :
    weighted round share ratio ≤ 25 * m ^ 2 := by
  have hsquare : m ^ 2 ≤ 4 := Nat.pow_le_pow_left hm 2
  have hm₀ : (0 : Rat) ≤ m := Nat.cast_nonneg m
  have hfactor : ∀ {x : Rat}, 0 ≤ x → x ≤ m / 2 → round x ≤ m / 2 := by
    intro x hx hx'
    have hquarters := hround.le (m := 2 * m) (by omega) hx (by push_cast; linarith)
    push_cast at hquarters
    linarith
  have hproduct : round (round share * round ratio) ≤ ((m ^ 2 : Nat) : Rat) / 4 := by
    refine hround.le (by omega) (mul_nonneg (hround.nonneg hshare) (hround.nonneg hratio)) ?_
    calc round share * round ratio ≤ m / 2 * (m / 2) :=
          mul_le_mul (hfactor hshare hshare') (hfactor hratio hratio') (hround.nonneg hratio)
            (by positivity)
      _ = ((m ^ 2 : Nat) : Rat) / 4 := by push_cast; ring
  have hproduct₀ : 0 ≤ round (round share * round ratio) :=
    hround.nonneg (mul_nonneg (hround.nonneg hshare) (hround.nonneg hratio))
  have hpercent : round (round (round share * round ratio) * 100) ≤
      ((100 * m ^ 2 : Nat) : Rat) / 4 := by
    refine hround.le (by omega) (by positivity) ?_
    push_cast at hproduct ⊢
    linarith
  have hpercent₀ := hround.nonneg (mul_nonneg hproduct₀ (by norm_num : (0 : Rat) ≤ 100))
  have hhalf : (mkRat 1 2 : Rat) = 1 / 2 := by rw [Rat.mkRat_eq_div]; norm_num
  have hraised := hround.le (m := 100 * m ^ 2 + 2) (by omega)
    (x := round (round (round share * round ratio) * 100) + mkRat 1 2)
    (by rw [hhalf]; positivity) (by rw [hhalf]; push_cast at hpercent ⊢; linarith)
  have hnext : ((25 * (m : Int) ^ 2 + 1 : Int) : Rat) = 25 * (m : Rat) ^ 2 + 1 := by push_cast; rfl
  rw [weighted, halfUp, ← Int.lt_add_one_iff, Rat.floor_lt_iff, hnext]
  refine hraised.trans_lt ?_
  push_cast
  linarith

/-- A part of a list that is no more than some halves of it. -/
theorem part_le {k m longer : Nat} (hlonger : 0 < longer) (h : 2 * k ≤ m * longer) :
    (mkRat k longer : Rat) ≤ m / 2 := by
  have hpos : (0 : Rat) < longer := Nat.cast_pos.2 hlonger
  have hle : (2 * k : Rat) ≤ m * longer := by exact_mod_cast h
  rw [Rat.mkRat_eq_div, Int.cast_natCast, div_le_iff₀ hpos]
  linarith

theorem part_nonneg (k longer : Nat) : (0 : Rat) ≤ mkRat k longer := by
  rw [Rat.mkRat_eq_div, Int.cast_natCast]
  positivity

theorem percentOf_nonneg (hround : KeepsQuarters round) (before after : List Text) :
    0 ≤ percentOf round before after := by
  by_cases h : before = [] ∨ after = []
  · rw [percentOf_eq_zero h]
  · rw [not_or] at h
    rw [percentOf_eq h.1 h.2]
    exact weighted_nonneg hround (part_nonneg _ _) (part_nonneg _ _)

/-- Where the shorter list is no more than some halves of the longer one, the score is no more than
the square of that part. -/
theorem percentOf_le (hround : KeepsQuarters round) (before after : List Text) {m : Nat}
    (hm : m ≤ 2)
    (hshort : 2 * min before.length after.length ≤ m * max before.length after.length) :
    percentOf round before after ≤ 25 * m ^ 2 := by
  by_cases h : before = [] ∨ after = []
  · rw [percentOf_eq_zero h]
    positivity
  · rw [not_or] at h
    have hlonger : 0 < max before.length after.length :=
      lt_max_of_lt_left (List.length_pos_iff.2 h.1)
    have hmatching := matching_le_min before after
    rw [percentOf_eq h.1 h.2]
    exact weighted_le hround hm (part_nonneg _ _) (part_nonneg _ _)
      (part_le hlonger (by omega)) (part_le hlonger hshort)

theorem percentOf_le_hundred (hround : KeepsQuarters round) (before after : List Text) :
    percentOf round before after ≤ 100 :=
  percentOf_le hround before after (le_refl 2) (by omega)

/-- Lists of which one is less than half as long as the other are little alike. -/
theorem length_le_of_percentOf (hround : KeepsQuarters round) {before after : List Text}
    (h : 25 < percentOf round before after) :
    before.length ≤ 2 * after.length ∧ after.length ≤ 2 * before.length := by
  by_contra hshort
  have hlow := percentOf_le hround before after (m := 1) (by omega) (by omega)
  omega

/-- With exact arithmetic the score is at most the square of the ratio of the lengths. -/
theorem percentOf_exact_le (before after : List Text) : percentOf exact before after ≤
    halfUp exact (100 * mkRat (min before.length after.length : Nat)
      (max before.length after.length) ^ 2) := by
  by_cases h : before = [] ∨ after = []
  · have hnone : min before.length after.length = 0 := by
      rcases h with h | h <;> simp [h]
    rw [percentOf_eq_zero h, hnone, Nat.cast_zero, Rat.zero_mkRat]
    decide +kernel
  · rw [not_or] at h
    have hpos : (0 : Rat) < (max before.length after.length : Nat) :=
      Nat.cast_pos.2 (lt_max_of_lt_left (List.length_pos_iff.2 h.1))
    have hmatching :
        ((matching before after : Nat) : Rat) ≤ (min before.length after.length : Nat) :=
      Nat.cast_le.2 (matching_le_min before after)
    rw [percentOf_eq h.1 h.2]
    refine Rat.floor_monotone (add_le_add ?_ (le_refl _))
    have hle : (mkRat (matching before after) (max before.length after.length) : Rat) ≤
        mkRat (min before.length after.length : Nat) (max before.length after.length) := by
      rw [Rat.mkRat_eq_div, Rat.mkRat_eq_div, Int.cast_natCast, Int.cast_natCast]
      exact div_le_div_of_nonneg_right hmatching hpos.le
    have hproduct := mul_le_mul_of_nonneg_right hle
      (part_nonneg (min before.length after.length) (max before.length after.length))
    simp only [exact, id]
    linarith

end Similarity

namespace Verdict

open Number Similarity

/-- Code that is accepted as a change is as like the text as the algorithm asks. -/
theorem floor_le_of_changed {raw source : Text} {r : Analysis} {given : Option Text}
    {limits : Thresholds} {o : Outcome} (h : validate raw source r given limits = .ok o)
    (hparsed : o.parsed = true) (hchange : o.noChange = false) :
    limits.floor r.algorithm ≤ Similarity.percent binary64 source o.code := by
  obtain ⟨hpasses, hsame⟩ := passes_of_validate h hparsed
  rcases hpasses.alike with hunchanged | hlike
  · rw [← hsame] at hunchanged
    cases hunchanged.symm.trans hchange
  · exact hlike

/-- **Laws of likeness.** The score of two texts is the same either way round and depends on their
filled lines alone; with exact arithmetic it lies between none and a hundred, is a hundred for the
same lines, and is at most the square of the ratio of the lengths. So code that reaches the floor,
and with binary64 arithmetic whatever is accepted as a change, has at least half and at most twice
as many filled lines as the text, if the algorithm is none that gets restructured. -/
theorem percent_laws (a b : Text) :
    let before := filledLines a
    let after := filledLines b
    let shorter := min before.length after.length
    let longer := max before.length after.length
    (∀ round, percent round a b = percent round b a) ∧
    (0 ≤ percent exact a b ∧ percent exact a b ≤ 100) ∧
    (before = after → before ≠ [] → percent exact a b = 100) ∧
    (∀ a' b', filledLines a' = before → filledLines b' = after →
      ∀ round, percent round a' b' = percent round a b) ∧
    percent exact a b ≤ halfUp exact (100 * mkRat shorter longer ^ 2) ∧
    (({} : Thresholds).similarityMin ≤ percent exact a b → longer ≤ 2 * shorter) ∧
    ∀ (raw : Text) (r : Analysis) (given : Option Text) (o : Outcome),
      validate raw a r given {} = .ok o → o.parsed = true → o.noChange = false →
      ({} : Thresholds).floor r.algorithm = ({} : Thresholds).similarityMin →
      before.length ≤ 2 * (filledLines o.code).length ∧
        (filledLines o.code).length ≤ 2 * before.length := by
  intro before after shorter longer
  have hfloor : (25 : Int) < ({} : Thresholds).similarityMin := by decide
  refine ⟨fun round => percentOf_comm round before after,
    ⟨percentOf_nonneg keepsQuarters_exact before after,
      percentOf_le_hundred keepsQuarters_exact before after⟩, ?_, ?_,
    percentOf_exact_le before after, ?_, ?_⟩
  · intro hsame hne
    calc percent exact a b = percentOf exact before before :=
          congrArg (percentOf exact before) hsame.symm
      _ = 100 := percentOf_self (by decide +kernel) hne
  · intro a' b' ha hb round
    rw [percent, percent, ha, hb]
  · intro hlike
    have hlengths : before.length ≤ 2 * after.length ∧ after.length ≤ 2 * before.length :=
      length_le_of_percentOf keepsQuarters_exact (hfloor.trans_le hlike)
    omega
  · intro raw r given o h hparsed hchange hplain
    have hlike := floor_le_of_changed h hparsed hchange
    rw [hplain] at hlike
    exact length_le_of_percentOf keepsQuarters_binary64 (hfloor.trans_le hlike)

/-- Two lines, laid out in two ways, and an answer that adds a third. -/
theorem percent_laws_of_two_lines :
    let a : Text := "x = 1\ny = 2".toList
    let b : Text := "  x = 1\n\ny = 2 \n".toList
    let raw : Text := "```\nx = 1\ny = 2\nprint(y)\n```".toList
    let r := Report.ofText a "auto".toList Chunk.defaultSize
    filledLines a = filledLines b ∧ filledLines a ≠ [] ∧ percent exact a b = 100 ∧
      percent binary64 b a = percent binary64 a b ∧
      ({} : Thresholds).similarityMin ≤ percent exact a b ∧
      max (filledLines a).length (filledLines b).length ≤
        2 * min (filledLines a).length (filledLines b).length ∧
      ({} : Thresholds).floor r.algorithm = ({} : Thresholds).similarityMin ∧
      ∃ o, validate raw a r none {} = .ok o ∧ o.parsed = true ∧ o.noChange = false ∧
        (filledLines a).length ≤ 2 * (filledLines o.code).length ∧
        (filledLines o.code).length ≤ 2 * (filledLines a).length := by
  intro a b raw r
  have hsame : filledLines a = filledLines b := by decide
  have hne : filledLines a ≠ [] := by decide
  have hseen : (validate raw a r none {}).toOption.map (fun o => (o.parsed, o.noChange)) =
      some (true, false) := by
    decide +kernel
  obtain ⟨o, ho, heq⟩ := exists_of_toOption_map hseen
  obtain ⟨hparsed, hchange⟩ := Prod.mk.inj heq
  have hplain : ({} : Thresholds).floor r.algorithm = ({} : Thresholds).similarityMin := by
    decide +kernel
  obtain ⟨-, -, hfull, hlines, -, hlength, haccepted⟩ := percent_laws a b
  have hhundred := hfull hsame hne
  have hlike : ({} : Thresholds).similarityMin ≤ percent exact a b := by
    rw [hhundred]
    decide
  exact ⟨hsame, hne, hhundred, hlines b a hsame.symm hsame binary64, hlike, hlength hlike, hplain, o,
    ho, hparsed, hchange, haccepted raw r none o ho hparsed hchange hplain⟩

end Verdict
end Refinery
