import Refinery.Proofs.Answer.Echo

/-!
Output that is unchanged. A text and one that differs from it in blanks at the ends of lines and of
the text only have the same filled lines, and every measure of the validation is taken on those: the
names, the lines with meaning and the likeness. So no test rejects what the comparison calls
unchanged.
-/

namespace Refinery

namespace Declared

open Text Similarity

/-- What is gathered line by line is gathered from the filled lines, if an empty line gives
nothing. -/
theorem flatMap_filledLines {f : Text → List Text} (h : f [] = []) (t : Text) :
    (filledLines t).flatMap f = ((lines t).map trim).flatMap f := by
  rw [filledLines]
  induction (lines t).map trim with
  | nil => rfl
  | cons l ls ih =>
      cases l with
      | nil =>
          rw [List.filter_cons_of_neg Bool.false_ne_true, ih, List.flatMap_cons, h, List.nil_append]
      | cons c l => rw [List.filter_cons_of_pos rfl, List.flatMap_cons, List.flatMap_cons, ih]

/-- **Texts with the same filled lines declare the same names in the same order.** -/
theorem ofText_of_filledLines {t u : Text} (h : filledLines t = filledLines u) :
    ofText t = ofText u := by
  have hnames : ∀ r : Recogniser Text, findValue r [] = none →
      ((lines t).map trim).filterMap (findValue r) =
        ((lines u).map trim).filterMap (findValue r) := by
    intro r hr
    have hnone : (findValue r []).toList = [] := by rw [hr, Option.toList_none]
    rw [List.filterMap_eq_flatMap_toList, List.filterMap_eq_flatMap_toList,
      ← flatMap_filledLines hnone, ← flatMap_filledLines hnone, h]
  have himports :
      ((lines t).map trim).flatMap importsOf = ((lines u).map trim).flatMap importsOf := by
    rw [← flatMap_filledLines rfl, ← flatMap_filledLines rfl, h]
  simp only [ofText]
  rw [hnames variableName rfl, hnames functionName rfl, hnames className rfl, himports]

end Declared

namespace Similarity

open Text Number

theorem sameLine_self (l : Text) : sameLine l l = true := by
  rw [sameLine, beq_self_eq_true, Bool.true_or]

theorem matching_self (ls : List Text) : matching ls ls = ls.length := by
  induction ls with
  | nil => rfl
  | cons l ls ih =>
      rw [matching] at ih ⊢
      rw [List.zip_cons_cons, List.filter_cons, if_pos (sameLine_self l), List.length_cons,
        List.length_cons, ih]

/-- The same lines are alike in full, with a rounding that keeps a whole share. -/
theorem percentOf_self {round : Rounding}
    (hround : halfUp round (round (round (round 1 * round 1) * 100)) = 100) {ls : List Text}
    (h : ls ≠ []) : percentOf round ls ls = 100 := by
  have hempty : ls.isEmpty = false := List.isEmpty_eq_false_iff.2 h
  have hlength : ((ls.length : Int) : Rat) ≠ 0 := by
    exact_mod_cast mt List.length_eq_zero_iff.1 h
  have hone : (mkRat ls.length ls.length : Rat) = 1 := by
    rw [Rat.mkRat_eq_div]
    exact div_self hlength
  simp only [percentOf, hempty, Bool.or_self, Bool.false_eq_true, if_false, matching_self, max_self,
    min_self, hone, hround]

theorem percent_of_unchanged {t u : Text} (h : unchanged t u = true) (ht : blank t = false) :
    percent binary64 t u = 100 := by
  have hne : filledLines t ≠ [] := by
    intro hnone
    rw [filledLines_eq_nil_iff.1 hnone] at ht
    cases ht
  rw [percent, ← filledLines_of_unchanged h]
  exact percentOf_self (by decide +kernel) hne

end Similarity

namespace Verdict

open Number Similarity Text

/-- Unchanged code that is whole passes, with full likeness. -/
theorem judge_of_unchanged {raw source code : Text} (algorithm : Text)
    (hfound : Extract.code? raw = some code) (howed : Brackets.owed code = [])
    (hwhole : Dangling.isTruncated code = false) (hsame : unchanged source code = true) :
    judge raw source algorithm {} = .ok ⟨code, false, true, 100⟩ := by
  have hlines : filledLines source = filledLines code := filledLines_of_unchanged hsame
  have hok : whole raw = .ok (code, false) := by
    refine whole_eq_ok_iff.2 ⟨code, hfound, ?_, ?_, Or.inr hwhole⟩
    · exact (Brackets.repaired_of_owed_eq_nil howed).symm
    · simp [howed]
  have hlong : (({} : Thresholds).minRatio (meaningfulLines source)).exceeds
      (sizeRatio (meaningfulLines source) (meaningfulLines code)) = false := by
    refine exceeds_minRatio (one_le_sizeRatio (Nat.le_of_eq ?_)) _
    rw [meaningfulLines_eq, hlines, ← meaningfulLines_eq]
  have hkeeps : Declared.Keeps source code :=
    Declared.keeps_of_filledLines_subset (hlines ▸ List.Subset.refl _)
  have haccept : acceptance source code false = ⟨code, false, true, 100⟩ := by
    simp only [acceptance, hsame, if_true]
  simp only [judge, hok, bind, Except.bind]
  exact compare_eq_ok_iff.2 ⟨hlong, hkeeps, Or.inl hsame, haccept.symm⟩

/-- **Unchanged output is always recognised**: on texts that are the same up to blanks the measures
agree, and whole code of this kind is accepted as unchanged, with full confidence and no warning. -/
theorem outcome_of_unchanged {source code : Text} (hsame : unchanged source code = true) :
    Declared.ofText source = Declared.ofText code ∧
    meaningfulLines source = meaningfulLines code ∧
    (blank source = false → Similarity.percent binary64 source code = 100) ∧
    ∀ (raw : Text) (r : Analysis) (given : Option Text), Extract.code? raw = some code →
      Brackets.owed code = [] → Dangling.isTruncated code = false →
      ∃ o, validate raw source r given {} = .ok o ∧
        o.parsed = true ∧ o.noChange = true ∧ o.confidence = 100 ∧ o.warning = none ∧
        o.complexityAfter = o.complexityBefore := by
  have hlines : filledLines source = filledLines code := filledLines_of_unchanged hsame
  refine ⟨Declared.ofText_of_filledLines hlines, ?_, percent_of_unchanged hsame, ?_⟩
  · rw [meaningfulLines_eq, hlines, ← meaningfulLines_eq]
  · intro raw r given hfound howed hwhole
    refine ⟨accepted ⟨code, false, true, 100⟩ r given 100, ?_, rfl, rfl, rfl, rfl, rfl⟩
    rw [validate_of_judge_ok (judge_of_unchanged r.algorithm hfound howed hwhole hsame), basis,
      if_pos rfl, Except.map]

/-- An answer without the indentation and the trailing blanks of the text, a wide one among them,
and with a blank on the empty line. -/
theorem outcome_of_stripped_text :
    let source : Text := "  a = 1 \n\nb = f(a)\u2003\n".toList
    let code : Text := "a = 1\n \nb = f(a)".toList
    let raw : Text := "```python\na = 1\n \nb = f(a)\n```".toList
    let r := Report.ofText source "auto".toList Chunk.defaultSize
    unchanged source code = true ∧ blank source = false ∧ Extract.code? raw = some code ∧
      Brackets.owed code = [] ∧ Dangling.isTruncated code = false ∧
      Similarity.percent binary64 source code = 100 ∧
      ∃ o, validate raw source r none {} = .ok o ∧
        o.parsed = true ∧ o.noChange = true ∧ o.confidence = 100 ∧ o.warning = none ∧
        o.complexityAfter = o.complexityBefore := by
  intro source code raw r
  have hsame : unchanged source code = true := by decide
  have hfound : Extract.code? raw = some code := by decide
  obtain ⟨-, -, hpercent, houtcome⟩ := outcome_of_unchanged hsame
  exact ⟨hsame, by decide, hfound, by decide, by decide, hpercent (by decide),
    houtcome raw r none hfound (by decide) (by decide)⟩

end Verdict
end Refinery
