import Refinery.Proofs.Answer.Fenced
import Refinery.Proofs.Answer.Verdict

/-!
A model that gives the text back. Its answer is taken for the unchanged text where the text owes no
bracket. Where it does, the answer is repaired like an answer that was cut off, and what is accepted
has a line more than the text for each bracket.
-/

namespace Refinery

namespace Brackets

theorem isCloser_of_closer? {c d : Char} (h : closer? c = some d) : isCloser d = true := by
  unfold closer? at h
  split at h <;> first | (cases h; rfl) | cases h

/-- The scanner owes closing brackets only. -/
theorem Scan.isCloser_of_mem_step {s : Scan} (h : ∀ d ∈ s.owed, isCloser d = true) (c : Char) :
    ∀ d ∈ (s.step c).owed, isCloser d = true := by
  unfold Scan.step
  split
  · exact h
  · split_ifs <;> exact h
  · split
    · exact h
    · split
      · next d hd =>
          intro e he
          rcases List.mem_cons.1 he with rfl | he
          · exact isCloser_of_closer? hd
          · exact h e he
      · split
        · exact fun d hd => h d (List.mem_of_mem_tail hd)
        · exact h

theorem Scan.isCloser_of_mem_run {s : Scan} (h : ∀ d ∈ s.owed, isCloser d = true) (code : Text) :
    ∀ d ∈ (s.run code).owed, isCloser d = true := by
  induction code generalizing s with
  | nil => exact h
  | cons c code ih => exact ih (Scan.isCloser_of_mem_step h c)

theorem isCloser_of_mem_owed {code : Text} : ∀ d ∈ owed code, isCloser d = true :=
  Scan.isCloser_of_mem_run (fun _ h => absurd h List.not_mem_nil) code

theorem filledLines_closer {c : Char} (h : isCloser c = true) :
    Similarity.filledLines [c] = [[c]] := by
  simp only [isCloser, Bool.or_eq_true, beq_iff_eq] at h
  rcases h with (rfl | rfl) | rfl <;> decide

/-- A repaired text has one more filled line for each bracket that was owed. -/
theorem filledLines_repaired {code : Text} (h : owed code ≠ []) :
    Similarity.filledLines (repaired code) =
      Similarity.filledLines code ++ (owed code).map fun c => [c] := by
  have hclosing : ∀ cs : List Char, (∀ c ∈ cs, isCloser c = true) →
      Similarity.filledLines (closing cs) = cs.map fun c => [c] := by
    intro cs hcs
    rw [closing, Similarity.filledLines_unlines, List.flatMap_map,
      List.flatMap_congr fun c hc => filledLines_closer (hcs c hc)]
    exact List.flatMap_pure_eq_map _ _
  rw [repaired_of_owed_ne_nil h, Similarity.filledLines_append_newline,
    Similarity.filledLines_trimRight, hclosing _ isCloser_of_mem_owed]

end Brackets

namespace Similarity

/-- Only filled lines can carry meaning. -/
theorem meaningfulLines_eq (t : Text) :
    meaningfulLines t = ((filledLines t).filter isMeaningful).length := by
  rw [meaningfulLines, filledLines, List.filter_filter]
  congr 2
  funext l
  cases l <;> simp [isMeaningful]

end Similarity

namespace Verdict

open Number Similarity Text

/-- The default limits ask for no more lines than the given text has. -/
theorem exceeds_minRatio {x : Rat} (h : 1 ≤ x) (n : Nat) :
    (({} : Thresholds).minRatio n).exceeds x = false := by
  have hlimits : ∀ y ∈ [binary64 (10 / 100), binary64 (30 / 100), binary64 (40 / 100)], y ≤ 1 := by
    decide +kernel
  have hbelow : ∀ y ∈ [binary64 (10 / 100), binary64 (30 / 100), binary64 (40 / 100)],
      (Real64.finite y).exceeds x = false :=
    fun y hy => decide_eq_false (not_lt.2 ((hlimits y hy).trans h))
  unfold Thresholds.minRatio
  split_ifs <;> exact hbelow _ (by simp)

theorem one_le_sizeRatio {n m : Nat} (h : n ≤ m) : 1 ≤ sizeRatio n m := by
  unfold sizeRatio
  split_ifs with hn
  · exact le_refl 1
  · refine one_le_binary64 ?_
    have hpos : (0 : Rat) < n := Nat.cast_pos.2 (Nat.pos_of_ne_zero hn)
    rw [Rat.mkRat_eq_div, le_div_iff₀ hpos, one_mul]
    exact_mod_cast h

/-- A text that comes back from a model unharmed: it owes no bracket, or with the brackets it is
taken for another text. -/
def Unharmed (source algorithm : Text) : Prop :=
  Brackets.owed (trim source) = [] ∨
    Similarity.percent binary64 source (Brackets.repaired (trim source)) <
      ({} : Thresholds).floor algorithm

instance (source algorithm : Text) : Decidable (Unharmed source algorithm) :=
  inferInstanceAs (Decidable (_ ∨ _))

section Fenced

variable {tag source : Text} (htag : tag.all Extract.isTag = true)
  (hsource : hasPart Extract.fence source = false)

include htag hsource

/-- What passes of a text that was given back is the trimmed text with the brackets it owes. -/
theorem Passes.code_eq {algorithm code : Text} {limits : Thresholds}
    (h : Passes (Prompt.fenced tag source) source algorithm limits code) :
    blank source = false ∧ code = Brackets.repaired (trim source) := by
  obtain ⟨found, hfound, hcode, -⟩ := h.found
  rw [Extract.code?_fenced htag hsource] at hfound
  cases hblank : blank source with
  | true =>
      rw [Extract.present?_of_blank hblank] at hfound
      cases hfound
  | false =>
      rw [Extract.present?_of_not_blank hblank, Option.some.injEq] at hfound
      exact ⟨rfl, by rw [hcode, hfound]⟩

/-- **A text that owes a bracket passes with it**, unless the two are too unlike. -/
theorem passes_of_not_unharmed {algorithm : Text} (h : ¬ Unharmed source algorithm) :
    Passes (Prompt.fenced tag source) source algorithm {} (Brackets.repaired (trim source)) := by
  obtain ⟨howed, halike⟩ := not_or.1 h
  have hblank : blank source = false := by
    cases hb : blank source with
    | true =>
        rw [trim_eq_nil_iff.2 hb] at howed
        exact absurd rfl howed
    | false => rfl
  have hlines := Brackets.filledLines_repaired howed
  rw [filledLines_trim] at hlines
  refine ⟨⟨trim source, ?_, rfl, Or.inl howed⟩, ?_, ?_, Or.inr (not_lt.1 halike)⟩
  · rw [Extract.code?_fenced htag hsource, Extract.present?_of_not_blank hblank]
  · refine exceeds_minRatio (one_le_sizeRatio ?_) _
    rw [meaningfulLines_eq, meaningfulLines_eq, hlines, List.filter_append, List.length_append]
    exact Nat.le_add_right _ _
  · refine Declared.keeps_of_filledLines_subset ?_
    rw [hlines]
    exact List.subset_append_left _ _

/-- An unharmed text is found unchanged wherever it is accepted. -/
theorem noChange_of_unharmed {r : Report} (given : Option Text)
    (hunharmed : Unharmed source r.algorithm)
    (h : (outcome (Prompt.fenced tag source) source r given {}).parsed = true) :
    (outcome (Prompt.fenced tag source) source r given {}).noChange = true := by
  obtain ⟨code, hpasses⟩ := parsed_outcome_iff.1 h
  rw [(outcome_of_passes _ hpasses).2.2]
  have hrepaired := (hpasses.code_eq htag hsource).2
  rcases hunharmed with howed | hunlike
  · rw [hrepaired, Brackets.repaired_of_owed_eq_nil howed]
    exact unchanged_trim source
  · rw [← hrepaired] at hunlike
    exact hpasses.alike.resolve_right (not_le.2 hunlike)

/-- A text that is not unharmed is accepted as a changed one. -/
theorem outcome_of_not_unharmed {r : Report} (given : Option Text)
    (hharmed : ¬ Unharmed source r.algorithm) :
    let o := outcome (Prompt.fenced tag source) source r given {}
    o.parsed = true ∧ o.noChange = false ∧ o.code = Brackets.repaired (trim source) := by
  intro o
  obtain ⟨hparsed, hcode, hnoChange⟩ :=
    outcome_of_passes given (passes_of_not_unharmed htag hsource hharmed)
  refine ⟨hparsed, ?_, hcode⟩
  rw [hnoChange, Bool.eq_false_iff]
  intro hsame
  have howed : Brackets.owed (trim source) ≠ [] := (not_or.1 hharmed).1
  have hlines := filledLines_of_unchanged hsame
  rw [Brackets.filledLines_repaired howed, filledLines_trim, List.self_eq_append_right,
    List.map_eq_nil_iff] at hlines
  exact howed hlines

end Fenced

end Verdict
end Refinery
