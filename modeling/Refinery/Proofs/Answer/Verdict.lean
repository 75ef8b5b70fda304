import Mathlib.Tactic.NormNum
import Refinery.Answer.Verdict
import Refinery.Proofs.Answer.Loss
import Refinery.Proofs.Number.Binary64

/-!
What a verdict says. Output is accepted exactly when the code found in it, repaired where it owes
brackets, passes every test and, where it is a change, the score is not too great for a percentage;
where it is too great there is no outcome. Output that does not pass leaves the given text in place,
with a reason. Either way no name of the given text is lost.
-/

namespace Refinery

theorem Rejection.message_ne_nil (why : Rejection) : why.message ≠ [] := by
  cases why <;> exact List.cons_ne_nil _ _

theorem exists_of_toOption_map {ε α β : Type} {x : Except ε α} {f : α → β} {b : β}
    (h : x.toOption.map f = some b) : ∃ a, x = .ok a ∧ f a = b := by
  cases x with
  | error _ => cases h
  | ok a => exact ⟨a, rfl, Option.some.inj h⟩

namespace Brackets

theorem repair?_of_owed_eq_nil {code : Text} (h : owed code = []) : repair? code = none := by
  rw [repair?, h]

theorem repair?_of_owed_ne_nil {code : Text} (h : owed code ≠ []) :
    repair? code = some (Text.trimRight code ++ '\n' :: closing (owed code)) := by
  rw [repair?]
  split
  · contradiction
  · rw [List.append_assoc, List.singleton_append]

theorem repaired_of_owed_eq_nil {code : Text} (h : owed code = []) : repaired code = code := by
  rw [repaired, repair?_of_owed_eq_nil h, Option.getD_none]

theorem repaired_of_owed_ne_nil {code : Text} (h : owed code ≠ []) :
    repaired code = Text.trimRight code ++ '\n' :: closing (owed code) := by
  rw [repaired, repair?_of_owed_ne_nil h, Option.getD_some]

end Brackets

namespace Verdict

open Number Similarity

/-! ### Acceptance -/

/-- The output `raw` carries `code`, which passes every test against `source`. -/
structure Passes (raw source algorithm : Text) (limits : Thresholds) (code : Text) : Prop where
  /-- The code that was found, repaired if it owes brackets, and whole if not. -/
  found : ∃ found, Extract.code? raw = some found ∧ code = Brackets.repaired found ∧
    (Brackets.owed found ≠ [] ∨ Dangling.isTruncated found = false)
  long : (limits.minRatio (meaningfulLines source)).exceeds
    (sizeRatio (meaningfulLines source) (meaningfulLines code)) = false
  keeps : Declared.Keeps source code
  alike : unchanged source code = true ∨
    limits.floor algorithm ≤ Similarity.percent binary64 source code

theorem whole_eq_ok_iff {raw code : Text} {repaired : Bool} :
    whole raw = .ok (code, repaired) ↔ ∃ found, Extract.code? raw = some found ∧
      code = Brackets.repaired found ∧ (repaired = true ↔ Brackets.owed found ≠ []) ∧
      (Brackets.owed found ≠ [] ∨ Dangling.isTruncated found = false) := by
  rw [whole]
  cases hraw : Extract.code? raw with
  | none => simp
  | some found =>
      by_cases howed : Brackets.owed found = []
      · simp only [Brackets.repair?_of_owed_eq_nil howed, Option.some.injEq, exists_eq_left', howed,
          ne_eq, not_true_eq_false, false_or, Brackets.repaired_of_owed_eq_nil howed, iff_false,
          Bool.not_eq_true]
        cases Dangling.isTruncated found with
        | true => simp
        | false => simp [eq_comm]
      · simp only [Brackets.repair?_of_owed_ne_nil howed, Option.some.injEq, exists_eq_left',
          howed, ne_eq, not_false_eq_true, true_or, and_true, iff_true, Except.ok.injEq,
          Prod.mk.injEq, Brackets.repaired_of_owed_ne_nil howed]
        rw [eq_comm, @eq_comm _ true]

/-- Code that passes the tests, as it is noted. -/
def acceptance (source code : Text) (repaired : Bool) : Acceptance where
  code := code
  repaired := repaired
  noChange := unchanged source code
  percent := if unchanged source code then 100 else Similarity.percent binary64 source code

theorem compare_eq_ok_iff {source code algorithm : Text} {repaired : Bool} {limits : Thresholds}
    {a : Acceptance} : compare source code repaired algorithm limits = .ok a ↔
      (limits.minRatio (meaningfulLines source)).exceeds
        (sizeRatio (meaningfulLines source) (meaningfulLines code)) = false ∧
      Declared.Keeps source code ∧
      (unchanged source code = true ∨
        limits.floor algorithm ≤ Similarity.percent binary64 source code) ∧
      a = acceptance source code repaired := by
  rw [compare]
  simp only [Declared.Keeps]
  split
  · next h => simp [h]
  · next hlong =>
      rw [Bool.not_eq_true] at hlong
      split
      · next h =>
          rw [Bool.not_eq_true'] at h
          simp [h]
      · next hkeeps =>
          rw [Bool.not_eq_true', Bool.not_eq_false] at hkeeps
          cases hsame : unchanged source code with
          | true => simp [hlong, hkeeps, acceptance, hsame, eq_comm]
          | false =>
              simp only [Bool.not_false, Bool.true_and, Bool.false_eq_true, if_false,
                decide_eq_true_eq, false_or]
              split
              · next h => simp [h]
              · next h => simp [hlong, hkeeps, not_lt.1 h, acceptance, hsame, eq_comm]

/-- What a judgement accepts passes, and is noted with what the tests saw. -/
theorem passes_of_judge {raw source algorithm : Text} {limits : Thresholds} {a : Acceptance}
    (h : judge raw source algorithm limits = .ok a) :
    Passes raw source algorithm limits a.code ∧ a.noChange = unchanged source a.code ∧
      ∃ found, Extract.code? raw = some found ∧
        (a.repaired = true ↔ Brackets.owed found ≠ []) := by
  rw [judge] at h
  cases hwhole : whole raw with
  | error why => simp [hwhole, bind, Except.bind] at h
  | ok pair =>
      obtain ⟨code, repaired⟩ := pair
      simp only [hwhole, bind, Except.bind] at h
      obtain ⟨hlong, hkeeps, halike, rfl⟩ := compare_eq_ok_iff.1 h
      obtain ⟨found, hraw, hcode, hrepaired, hend⟩ := whole_eq_ok_iff.1 hwhole
      exact ⟨⟨⟨found, hraw, hcode, hend⟩, hlong, hkeeps, halike⟩, rfl, found, hraw, hrepaired⟩

theorem exists_judge_of_passes {raw source algorithm code : Text} {limits : Thresholds}
    (h : Passes raw source algorithm limits code) :
    ∃ a, judge raw source algorithm limits = .ok a ∧ a.code = code := by
  obtain ⟨found, hraw, hcode, hend⟩ := h.found
  have hwhole : whole raw = .ok (code, !(Brackets.owed found).isEmpty) :=
    whole_eq_ok_iff.2 ⟨found, hraw, hcode, by simp, hend⟩
  refine ⟨acceptance source code (!(Brackets.owed found).isEmpty), ?_, rfl⟩
  simp only [judge, hwhole, bind, Except.bind]
  exact compare_eq_ok_iff.2 ⟨h.long, h.keeps, h.alike, rfl⟩

/-- An output carries one code at most. -/
theorem Passes.unique {raw source algorithm code other : Text} {limits : Thresholds}
    (h : Passes raw source algorithm limits code) (h' : Passes raw source algorithm limits other) :
    code = other := by
  obtain ⟨found, hraw, hcode, -⟩ := h.found
  obtain ⟨found', hraw', hcode', -⟩ := h'.found
  rw [hraw, Option.some.injEq] at hraw'
  rw [hcode, hcode', hraw']

/-- A share is a percentage from 0 to 100. -/
theorem scorePercent_mem {score : Real64} {percent : Int} (h : score.IsShare)
    (hpercent : scorePercent score = .ok percent) : 0 ≤ percent ∧ percent ≤ 100 := by
  obtain ⟨x, hx₀, h₁, hx⟩ := h.hundredfold
  rw [scorePercent, Real64.halfUp_of_toRat? hx, Except.ok.injEq, halfUp] at hpercent
  have hx : x ≤ ((100 : Nat) : Rat) * 2 ^ (0 : Int) := by
    norm_num
    exact h₁
  have hy₀ : 0 ≤ binary64 x := binary64_nonneg hx₀
  have hy : binary64 x ≤ ((100 : Nat) : Rat) * 2 ^ (0 : Int) :=
    binary64_le (by norm_num) hx₀ (hx.trans_lt (by norm_num)) hx
  have hhalf : (mkRat 1 2 : Rat) = 1 / 2 := by rw [Rat.mkRat_eq_div]; norm_num
  have hz₀ : 0 ≤ binary64 x + mkRat 1 2 := by
    rw [hhalf]
    positivity
  have hz : binary64 x + mkRat 1 2 ≤ ((201 : Nat) : Rat) * 2 ^ (-1 : Int) := by
    rw [hhalf]
    norm_num at hy ⊢
    linarith
  have hw : binary64 (binary64 x + mkRat 1 2) ≤ ((201 : Nat) : Rat) * 2 ^ (-1 : Int) :=
    binary64_le (by norm_num) hz₀ (hz.trans_lt (by norm_num)) hz
  rw [← hpercent]
  constructor
  · exact Rat.le_floor_iff.2 (by simpa using binary64_nonneg hz₀)
  · refine Int.lt_add_one_iff.1 (Rat.floor_lt_iff.2 (hw.trans_lt ?_))
    norm_num

theorem exists_basis_iff {a : Acceptance} {score : Real64} : (∃ c, basis a score = .ok c) ↔
    a.noChange = true ∨ score.hundredfold.isFinite = true := by
  rw [basis]
  split
  · next h => simp [h]
  · next h => rw [or_iff_right h, scorePercent, Real64.exists_halfUp_iff]

theorem basis_eq_error_iff {a : Acceptance} {score : Real64} {why : Real64.Fault} :
    basis a score = .error why ↔ a.noChange = false ∧ scorePercent score = .error why := by
  rw [basis]
  split
  · next h => simp [h]
  · next h => rw [and_iff_right (Bool.eq_false_iff.2 h)]

theorem confidence_mem {a : Acceptance} {score : Real64} {c : Int} {isC : Bool}
    (h : score.IsShare) (hc : basis a score = .ok c) :
    0 ≤ confidence a c isC ∧ confidence a c isC ≤ 100 := by
  have hrange : 0 ≤ c ∧ c ≤ 100 := by
    rw [basis] at hc
    split at hc
    · rw [← Except.ok.inj hc]
      decide
    · exact scorePercent_mem h hc
  obtain ⟨hlow, hhigh⟩ := hrange
  simp only [confidence, cCap, unlikeCap, repairedCap]
  split_ifs <;> omega

theorem confidence_le_of_repaired {a : Acceptance} {c : Int} {isC : Bool}
    (h : a.repaired = true) : confidence a c isC ≤ repairedCap := by
  rw [confidence, if_pos h]
  exact min_le_right _ _

/-! ### Outcomes -/

section Outcomes

variable {raw source code : Text} {r : Analysis} {given : Option Text} {limits : Thresholds}
  {o : Outcome}

theorem validate_of_judge_error {why : Rejection}
    (h : judge raw source r.algorithm limits = .error why) :
    validate raw source r given limits = .ok (Outcome.kept source r why.message given) := by
  simp only [validate, h]

theorem validate_of_judge_ok {a : Acceptance} (h : judge raw source r.algorithm limits = .ok a) :
    validate raw source r given limits = (basis a r.score).map (accepted a r given) := by
  simp only [validate, h]

/-- An outcome keeps the text, or it is made of what was accepted. -/
theorem validate_cases (h : validate raw source r given limits = .ok o) :
    (∃ why, judge raw source r.algorithm limits = .error why ∧
      o = Outcome.kept source r why.message given) ∨
    ∃ a c, judge raw source r.algorithm limits = .ok a ∧ basis a r.score = .ok c ∧
      o = accepted a r given c := by
  cases hjudge : judge raw source r.algorithm limits with
  | error why =>
      rw [validate_of_judge_error hjudge, Except.ok.injEq] at h
      exact Or.inl ⟨why, rfl, h.symm⟩
  | ok a =>
      rw [validate_of_judge_ok hjudge] at h
      cases hbasis : basis a r.score with
      | error why =>
          rw [hbasis] at h
          cases h
      | ok c =>
          rw [hbasis] at h
          exact Or.inr ⟨a, c, rfl, hbasis, (Except.ok.inj h).symm⟩

/-- What is accepted passes. -/
theorem passes_of_validate (h : validate raw source r given limits = .ok o)
    (hparsed : o.parsed = true) : Passes raw source r.algorithm limits o.code ∧
      o.noChange = unchanged source o.code := by
  obtain ⟨why, -, rfl⟩ | ⟨a, c, hjudge, -, rfl⟩ := validate_cases h
  · cases hparsed
  · obtain ⟨hpasses, hsame, -⟩ := passes_of_judge hjudge
    exact ⟨hpasses, hsame⟩

theorem judge_of_not_passes (h : ∀ code, ¬ Passes raw source r.algorithm limits code) :
    ∃ why, judge raw source r.algorithm limits = .error why := by
  cases hjudge : judge raw source r.algorithm limits with
  | error why => exact ⟨why, rfl⟩
  | ok a => exact absurd (passes_of_judge hjudge).1 (h a.code)

/-- What does not pass leaves the text in place, with a reason. -/
theorem validate_of_not_passes (h : ∀ code, ¬ Passes raw source r.algorithm limits code) :
    ∃ o, validate raw source r given limits = .ok o ∧ o.parsed = false ∧ o.code = source ∧
      o.noChange = true ∧ o.confidence = 0 ∧ ∃ reason, o.warning = some reason ∧ reason ≠ [] := by
  obtain ⟨why, hjudge⟩ := judge_of_not_passes h
  exact ⟨_, validate_of_judge_error hjudge, rfl, rfl, rfl, rfl, why.message, rfl,
    why.message_ne_nil⟩

/-- What passes is accepted, if there is an outcome at all. -/
theorem parsed_of_passes (hpasses : Passes raw source r.algorithm limits code)
    (h : validate raw source r given limits = .ok o) :
    o.parsed = true ∧ o.code = code ∧ o.noChange = unchanged source code := by
  have hparsed : o.parsed = true := by
    obtain ⟨a, hjudge, -⟩ := exists_judge_of_passes hpasses
    obtain ⟨why, hjudge', -⟩ | ⟨-, -, -, -, rfl⟩ := validate_cases h
    · rw [hjudge] at hjudge'
      cases hjudge'
    · rfl
  obtain ⟨hpasses', hsame⟩ := passes_of_validate h hparsed
  obtain rfl := hpasses'.unique hpasses
  exact ⟨hparsed, rfl, hsame⟩

theorem exists_validate_of_passes (given : Option Text)
    (hpasses : Passes raw source r.algorithm limits code)
    (h : unchanged source code = true ∨ r.score.hundredfold.isFinite = true) :
    ∃ o, validate raw source r given limits = .ok o := by
  obtain ⟨a, hjudge, rfl⟩ := exists_judge_of_passes hpasses
  rw [← (passes_of_judge hjudge).2.1] at h
  obtain ⟨c, hc⟩ := exists_basis_iff.2 h
  rw [validate_of_judge_ok hjudge, hc]
  exact ⟨_, rfl⟩

/-- There is no outcome where a change passes and the score makes no percentage. -/
theorem validate_eq_error_iff {why : Real64.Fault} :
    validate raw source r given limits = .error why ↔ ∃ code,
      Passes raw source r.algorithm limits code ∧ unchanged source code = false ∧
        scorePercent r.score = .error why := by
  constructor
  · intro h
    cases hjudge : judge raw source r.algorithm limits with
    | error why' =>
        rw [validate_of_judge_error hjudge] at h
        cases h
    | ok a =>
        rw [validate_of_judge_ok hjudge] at h
        obtain ⟨hpasses, hsame, -⟩ := passes_of_judge hjudge
        cases hbasis : basis a r.score with
        | error why' =>
            rw [hbasis] at h
            obtain rfl : why' = why := Except.error.inj h
            rw [basis_eq_error_iff, hsame] at hbasis
            exact ⟨a.code, hpasses, hbasis⟩
        | ok c =>
            rw [hbasis] at h
            cases h
  · rintro ⟨code, hpasses, hchange, hscore⟩
    obtain ⟨a, hjudge, rfl⟩ := exists_judge_of_passes hpasses
    rw [← (passes_of_judge hjudge).2.1] at hchange
    rw [validate_of_judge_ok hjudge, basis_eq_error_iff.2 ⟨hchange, hscore⟩]
    rfl

theorem confidence_mem_of_validate (h : validate raw source r given limits = .ok o)
    (hshare : r.score.IsShare) : 0 ≤ o.confidence ∧ o.confidence ≤ 100 := by
  obtain ⟨why, -, rfl⟩ | ⟨a, c, -, hbasis, rfl⟩ := validate_cases h
  · exact ⟨le_refl 0, Int.zero_le_ofNat 100⟩
  · exact confidence_mem hshare hbasis

/-- Repaired code is marked and gets little confidence. -/
theorem capped_of_validate {found : Text} (h : validate raw source r given limits = .ok o)
    (hparsed : o.parsed = true) (hraw : Extract.code? raw = some found)
    (howed : Brackets.owed found ≠ []) :
    o.confidence ≤ repairedCap ∧ o.warning = some repairedWarning := by
  obtain ⟨why, -, rfl⟩ | ⟨a, c, hjudge, -, rfl⟩ := validate_cases h
  · cases hparsed
  · obtain ⟨-, -, found', hraw', hrepaired⟩ := passes_of_judge hjudge
    obtain rfl : found = found' := Option.some.inj (hraw.symm.trans hraw')
    have hmark : a.repaired = true := hrepaired.2 howed
    exact ⟨confidence_le_of_repaired hmark, by rw [accepted, if_pos hmark]⟩

/-- Whatever becomes of an output, the outcome has every name of the given text. -/
theorem keeps_of_validate (h : validate raw source r given limits = .ok o) :
    Declared.Keeps source o.code := by
  obtain ⟨why, -, rfl⟩ | ⟨a, c, hjudge, -, rfl⟩ := validate_cases h
  · exact Declared.Keeps.refl source
  · exact (passes_of_judge hjudge).1.keeps

end Outcomes

/-- **A verdict is sound and complete**: it accepts the code of an output exactly when that passes
every test and is no change or has a score that makes a percentage, and delivers it. Where only the
score is amiss there is no outcome; where no code passes, the outcome is the given text with no
confidence and a reason. The confidence is a percentage where the score is a share, and repaired
code is marked and gets little. -/
theorem validate_exact (raw source : Text) (r : Analysis) (given : Option Text)
    (limits : Thresholds) :
    let result := validate raw source r given limits
    let passes := Passes raw source r.algorithm limits
    ((∃ o, result = .ok o ∧ o.parsed = true) ↔ ∃ code, passes code ∧
      (unchanged source code = true ∨ r.score.hundredfold.isFinite = true)) ∧
    (∀ o code, result = .ok o → passes code →
      o.parsed = true ∧ o.code = code ∧ o.noChange = unchanged source code) ∧
    (result = .error .infinite ↔ ∃ code, passes code ∧ unchanged source code = false ∧
      ∃ negative, r.score.hundredfold = .infinite negative) ∧
    (result = .error .notANumber ↔ ∃ code, passes code ∧ unchanged source code = false ∧
      r.score.hundredfold = .notANumber) ∧
    ((∀ code, ¬ passes code) → ∃ o, result = .ok o ∧ o.parsed = false ∧ o.code = source ∧
      o.noChange = true ∧ o.confidence = 0 ∧ ∃ reason, o.warning = some reason ∧ reason ≠ []) ∧
    (r.score.IsShare → ∃ o, result = .ok o ∧ 0 ≤ o.confidence ∧ o.confidence ≤ 100) ∧
    (∀ o found, result = .ok o → o.parsed = true → Extract.code? raw = some found →
      Brackets.owed found ≠ [] →
        o.confidence ≤ 50 ∧ ∃ reason, o.warning = some reason ∧ reason ≠ []) := by
  intro result passes
  refine ⟨⟨?_, ?_⟩, fun o code h hpasses => parsed_of_passes hpasses h,
    ?_, ?_, validate_of_not_passes, fun hshare => ?_, fun o found h hparsed hraw howed => ?_⟩
  · rintro ⟨o, h, hparsed⟩
    refine ⟨o.code, (passes_of_validate h hparsed).1, ?_⟩
    obtain ⟨why, -, rfl⟩ | ⟨a, c, hjudge, hbasis, rfl⟩ := validate_cases h
    · cases hparsed
    · have hcounts := exists_basis_iff.1 ⟨c, hbasis⟩
      rwa [(passes_of_judge hjudge).2.1] at hcounts
  · rintro ⟨code, hpasses, hcounts⟩
    obtain ⟨o, h⟩ := exists_validate_of_passes given hpasses hcounts
    exact ⟨o, h, (parsed_of_passes hpasses h).1⟩
  · simp only [result, validate_eq_error_iff, scorePercent, Real64.halfUp_eq_infinite_iff]
    rfl
  · simp only [result, validate_eq_error_iff, scorePercent, Real64.halfUp_eq_notANumber_iff]
    rfl
  · obtain ⟨o, h⟩ := exists_validate raw source ⟨r, hshare⟩ given limits
    exact ⟨o, h, confidence_mem_of_validate h hshare⟩
  · obtain ⟨hcap, hwarning⟩ := capped_of_validate h hparsed hraw howed
    exact ⟨hcap, repairedWarning, hwarning, List.cons_ne_nil _ _⟩

/-- An output that repeats a text which owes a bracket is accepted with the bracket; an empty output
is not accepted. -/
theorem validate_exact_of_owing_text :
    let source : Text := "a = 1\nb = 2\nc = (a".toList
    let r : Analysis := Report.ofText source "javascript".toList Chunk.defaultSize
    ∃ repeated empty, validate source source r none {} = .ok repeated ∧
      repeated.parsed = true ∧ repeated.code = "a = 1\nb = 2\nc = (a\n)".toList ∧
      repeated.noChange = false ∧ 0 ≤ repeated.confidence ∧ repeated.confidence ≤ 50 ∧
      (∃ reason, repeated.warning = some reason ∧ reason ≠ []) ∧
      repeated.warning = some ("Model output was truncated; missing closing brackets were " ++
        "appended automatically.").toList ∧
      validate [] source r none {} = .ok empty ∧ empty.parsed = false ∧ empty.code = source ∧
      empty.confidence = 0 := by
  intro source r
  have hpasses : Passes source source r.algorithm {} "a = 1\nb = 2\nc = (a\n)".toList :=
    ⟨⟨source, by decide, by decide, Or.inl (by decide)⟩, by decide +kernel, by decide,
      Or.inr (by decide +kernel)⟩
  have hnone : ∀ code, ¬ Passes [] source r.algorithm {} code := by
    intro code h
    obtain ⟨found, hraw, -⟩ := h.found
    cases hraw
  obtain ⟨hiff, hcode, -, -, -, hrange, hcap⟩ := validate_exact source source r none {}
  obtain ⟨-, -, -, -, hkept, -, -⟩ := validate_exact [] source r none {}
  obtain ⟨o, ho, hparsed⟩ := hiff.2 ⟨_, hpasses, Or.inr (by decide +kernel)⟩
  obtain ⟨-, htext, hsame⟩ := hcode o _ ho hpasses
  obtain ⟨o', ho', hlow, -⟩ := hrange (Report.ofText _ _ _).isShare_score
  obtain rfl : o = o' := Except.ok.inj (ho.symm.trans ho')
  have hraw : Extract.code? source = some source := by decide
  have howed : Brackets.owed source ≠ [] := by decide
  obtain ⟨hlittle, hmarked⟩ := hcap o source ho hparsed hraw howed
  have htold := (capped_of_validate ho hparsed hraw howed).2
  obtain ⟨empty, hempty, hrefused, hsource, -, hzero, -⟩ := hkept hnone
  exact ⟨o, empty, ho, hparsed, htext, hsame.trans (by decide), hlow, hlittle, hmarked,
    htold.trans (by decide), hempty, hrefused, hsource, hzero⟩

/-- A score of which a hundred times is past the reach of binary64: the change passes every test and
has no outcome. A limit that is no number refuses no text. -/
theorem validate_of_great_score :
    let source : Text := "a = 1\nb = 2".toList
    let raw : Text := "```\na = 1\nb = 3\n```".toList
    let r : Analysis :=
      { Report.ofText source "auto".toList Chunk.defaultSize with score := Real64.ofRat (10 ^ 307) }
    let limits : Thresholds := { smallMinRatio := .notANumber }
    Passes raw source r.algorithm {} "a = 1\nb = 3".toList ∧
      validate raw source r none {} = .error .infinite ∧
      limits.minRatio (meaningfulLines source) = .notANumber ∧
      ∃ o, validate source source r none limits = .ok o ∧ o.parsed = true := by
  intro source raw r limits
  have hpasses : Passes raw source r.algorithm {} "a = 1\nb = 3".toList :=
    ⟨⟨"a = 1\nb = 3".toList, by decide, by decide, Or.inr (by decide)⟩, by decide +kernel,
      by decide, Or.inr (by decide +kernel)⟩
  have hscore : r.score.hundredfold = .infinite false := by decide +kernel
  have hpasses' : Passes source source r.algorithm limits source :=
    ⟨⟨source, by decide, by decide, Or.inr (by decide)⟩, by decide +kernel, by decide,
      Or.inl (by decide)⟩
  obtain ⟨o, ho⟩ := exists_validate_of_passes none hpasses' (Or.inl (by decide))
  refine ⟨hpasses, validate_eq_error_iff.2 ⟨_, hpasses, by decide, ?_⟩, by decide, o, ho,
    (parsed_of_passes hpasses' ho).1⟩
  rw [scorePercent, hscore, Real64.halfUp]

section Reports

variable {raw source code : Text} {r : Report} {given : Option Text} {limits : Thresholds}

theorem parsed_outcome_iff : (outcome raw source r given limits).parsed = true ↔
    ∃ code, Passes raw source r.algorithm limits code := by
  have h := validate_report raw source r given limits
  exact ⟨fun hparsed => ⟨_, (passes_of_validate h hparsed).1⟩,
    fun ⟨code, hpasses⟩ => (parsed_of_passes hpasses h).1⟩

theorem outcome_of_passes (given : Option Text)
    (hpasses : Passes raw source r.algorithm limits code) :
    (outcome raw source r given limits).parsed = true ∧
      (outcome raw source r given limits).code = code ∧
      (outcome raw source r given limits).noChange = unchanged source code :=
  parsed_of_passes hpasses (validate_report raw source r given limits)

/-- An outcome that was not accepted keeps the text. -/
theorem kept_outcome (h : (outcome raw source r given limits).parsed = false) :
    (outcome raw source r given limits).code = source ∧
      (outcome raw source r given limits).noChange = true := by
  obtain ⟨why, -, ho⟩ | ⟨a, c, -, -, ho⟩ := validate_cases (validate_report raw source r given limits)
  · rw [ho]
    exact ⟨rfl, rfl⟩
  · rw [ho] at h
    cases h

theorem keeps_outcome (raw source : Text) (r : Report) (given : Option Text)
    (limits : Thresholds) : Declared.Keeps source (outcome raw source r given limits).code :=
  keeps_of_validate (validate_report raw source r given limits)

end Reports

end Verdict
end Refinery
