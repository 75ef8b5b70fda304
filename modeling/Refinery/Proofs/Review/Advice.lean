import Mathlib.Data.List.Induction
import Mathlib.Data.List.Nodup
import Refinery.Review.Advice

/-!
Advice for findings. There is one piece of advice for each known kind, and a list of findings gets
the pieces of its distinct known kinds in the order in which these are first found. A text that is
quadratic or worse gets exactly one piece that mentions hashing: that for nested loops, the only one
of the table that does, or else the general one. A finding of an unknown kind, or of one that has
been found already, adds nothing.
-/

namespace Refinery

section FirstOccurrences

variable {α : Type} [DecidableEq α]

theorem eraseDups_concat (l : List α) (a : α) :
    (l ++ [a]).eraseDups = if a ∈ l then l.eraseDups else l.eraseDups ++ [a] := by
  rw [List.eraseDups_append, List.cons_removeAll]
  by_cases ha : a ∈ l
  · simp [ha, List.removeAll]
  · simp [ha, List.removeAll, List.eraseDups_cons]

/-- What has occurred already may occur again. -/
theorem eraseDups_insert_of_mem {l : List α} {a : α} (h : a ∈ l) (m : List α) :
    (l ++ a :: m).eraseDups = (l ++ m).eraseDups := by
  rw [List.eraseDups_append, List.eraseDups_append, List.cons_removeAll, if_neg (by simpa using h)]

theorem eraseDups_filter (p : α → Bool) (l : List α) :
    (l.filter p).eraseDups = l.eraseDups.filter p := by
  induction l using List.reverseRecOn with
  | nil => rfl
  | append_singleton l a ih =>
      rw [List.filter_append, eraseDups_concat]
      cases hp : p a with
      | false =>
          rw [List.filter_cons_of_neg (by simp [hp]), List.filter_nil, List.append_nil, ih]
          by_cases ha : a ∈ l
          · rw [if_pos ha]
          · rw [if_neg ha, List.filter_append, List.filter_cons_of_neg (by simp [hp]),
              List.filter_nil, List.append_nil]
      | true =>
          rw [List.filter_cons_of_pos hp, List.filter_nil, eraseDups_concat, ih]
          by_cases ha : a ∈ l
          · rw [if_pos ha, if_pos (List.mem_filter.2 ⟨ha, hp⟩)]
          · rw [if_neg ha, if_neg (mt List.mem_of_mem_filter ha), List.filter_append,
              List.filter_cons_of_pos hp, List.filter_nil]

/-- Where the copies are dropped, what is left is ordered by its first places. -/
theorem pairwise_idxOf_eraseDups (l : List α) :
    l.eraseDups.Pairwise fun a b => l.idxOf a < l.idxOf b := by
  induction l using List.reverseRecOn with
  | nil => exact List.Pairwise.nil
  | append_singleton l c ih =>
      have hkept : l.eraseDups.Pairwise fun a b => (l ++ [c]).idxOf a < (l ++ [c]).idxOf b := by
        apply ih.imp_of_mem
        intro a b ha hb hlt
        rwa [List.idxOf_append_of_mem (List.mem_eraseDups.1 ha),
          List.idxOf_append_of_mem (List.mem_eraseDups.1 hb)]
      rw [eraseDups_concat]
      by_cases hc : c ∈ l
      · rwa [if_pos hc]
      · rw [if_neg hc, List.pairwise_append]
        refine ⟨hkept, List.pairwise_singleton _ c, fun a ha b hb => ?_⟩
        have ha : a ∈ l := List.mem_eraseDups.1 ha
        rw [List.mem_singleton.1 hb, List.idxOf_append_of_mem ha, List.idxOf_append_of_notMem hc]
        exact Nat.lt_add_right _ (List.idxOf_lt_length_of_mem ha)

end FirstOccurrences

namespace FindingKind

/-- The kinds that have a name of their own. -/
def IsKnown (k : FindingKind) : Prop := k ∈ known.map Prod.fst

instance : DecidablePred IsKnown := fun k => inferInstanceAs (Decidable (k ∈ known.map Prod.fst))

/-- There is advice for the known kinds and for no others. -/
theorem isSome_advice?_iff (k : FindingKind) : k.advice?.isSome = true ↔ k.IsKnown := by
  constructor
  · intro h
    cases k with
    | other name => cases h
    | _ => decide
  · have hall : ∀ k ∈ known.map Prod.fst, k.advice?.isSome = true := by decide
    exact hall k

theorem advice?_eq_none {k : FindingKind} (h : ¬ k.IsKnown) : k.advice? = none := by
  rwa [← isSome_advice?_iff, Bool.not_eq_true, Option.isSome_eq_false_iff,
    Option.isNone_iff_eq_none] at h

/-- No two kinds have the same advice. -/
theorem eq_of_advice? {k k' : FindingKind} {a : Advice} (h : a ∈ k.advice?) (h' : a ∈ k'.advice?) :
    k = k' := by
  -- Their actions differ in the first two letters.
  have hnodup : ((known.map Prod.fst).map fun k => k.advice?.map (·.action.take 2)).Nodup := by
    decide +kernel
  have hknown : ∀ {k : FindingKind}, a ∈ k.advice? → k.IsKnown := fun hk =>
    (isSome_advice?_iff _).1 (Option.isSome_of_mem hk)
  exact List.inj_on_of_nodup_map hnodup (hknown h) (hknown h')
    (congrArg (Option.map (·.action.take 2)) (h.trans h'.symm))

/-- Of the table only the advice for nested loops mentions hashing. -/
theorem mentionsHash_iff {k : FindingKind} {a : Advice} (h : a ∈ k.advice?) :
    a.mentionsHash = true ↔ k = nestedLoops := by
  have hall : ∀ k ∈ known.map Prod.fst, ∀ a ∈ k.advice?,
      (a.mentionsHash = true ↔ k = nestedLoops) := by decide +kernel
  exact hall k ((isSome_advice?_iff k).1 (Option.isSome_of_mem h)) a h

/-- Some kinds are the distinct known ones of a list, in the order in which they first occur. -/
structure FirstKnown (kinds ks : List FindingKind) : Prop where
  ordered : ks.Pairwise fun a b => kinds.idxOf a < kinds.idxOf b
  mem_iff : ∀ k, k ∈ ks ↔ k ∈ kinds ∧ k.IsKnown

theorem firstKnown_filter (kinds : List FindingKind) :
    FirstKnown kinds (kinds.eraseDups.filter fun k => k.IsKnown) := by
  constructor
  · exact (pairwise_idxOf_eraseDups kinds).filter _
  · intro k
    rw [List.mem_filter, List.mem_eraseDups, decide_eq_true_iff]

theorem FirstKnown.nodup {kinds ks : List FindingKind} (h : FirstKnown kinds ks) : ks.Nodup := by
  apply h.ordered.imp
  rintro a b hlt rfl
  exact absurd hlt (Nat.lt_irrefl _)

end FindingKind

namespace Advice

open FindingKind

/-- Kinds that are not known add nothing. -/
theorem filterMap_filter_known (ks : List FindingKind) :
    (ks.filter fun k => k.IsKnown).filterMap advice? = ks.filterMap advice? := by
  rw [List.filterMap_filter]
  apply List.filterMap_congr
  intro k _
  by_cases hk : k.IsKnown
  · rw [if_pos (decide_eq_true hk)]
  · rw [if_neg (by simpa using hk), advice?_eq_none hk]

theorem ofKinds_filter_known (kinds : List FindingKind) :
    ofKinds (kinds.filter fun k => k.IsKnown) = ofKinds kinds := by
  rw [ofKinds, eraseDups_filter, filterMap_filter_known, ofKinds]

/-- A kind that is not known, or that has been found, adds nothing. -/
theorem ofKinds_insert {ks : List FindingKind} {k : FindingKind} (h : k ∈ ks ∨ ¬ k.IsKnown)
    (ls : List FindingKind) : ofKinds (ks ++ k :: ls) = ofKinds (ks ++ ls) := by
  rcases h with hfound | hunknown
  · rw [ofKinds, eraseDups_insert_of_mem hfound, ofKinds]
  · rw [← ofKinds_filter_known, ← ofKinds_filter_known (ks ++ ls), List.filter_append,
      List.filter_append, List.filter_cons_of_neg (by simpa using hunknown)]

theorem nodup_ofKinds (kinds : List FindingKind) : (ofKinds kinds).Nodup := by
  have hfirst := (firstKnown_filter kinds).nodup
  rw [ofKinds, ← filterMap_filter_known]
  exact hfirst.filterMap fun _ _ _ h h' => eq_of_advice? h h'

/-- At most one piece mentions hashing, since each kind gives one piece at most. -/
theorem countP_ofKinds_le_one (kinds : List FindingKind) :
    (ofKinds kinds).countP mentionsHash ≤ 1 := by
  have hloops : ∀ k : FindingKind, (k.advice?.map mentionsHash).getD false = true →
      (k == nestedLoops) = true := by
    intro k hk
    cases ha : k.advice? with
    | none => simp [ha] at hk
    | some a => exact beq_iff_eq.2 ((mentionsHash_iff ha).1 (by simpa [ha] using hk))
  rw [ofKinds, ← filterMap_filter_known, List.countP_filterMap]
  calc _ ≤ List.countP (· == nestedLoops) (kinds.eraseDups.filter fun k => k.IsKnown) :=
        List.countP_mono_left fun k _ => hloops k
    _ ≤ 1 := List.nodup_iff_count_le_one.1 (firstKnown_filter kinds).nodup nestedLoops

theorem mentionsHash_hashing (c : Complexity) : (hashing c).mentionsHash = true := rfl

theorem ofFindings_eq (findings : List Finding) (c : Complexity) :
    ofFindings findings c = ofKinds (findings.map Finding.kind) ++
      if c.isQuadraticOrWorse = true ∧ ∀ a ∈ ofKinds (findings.map Finding.kind), a.mentionsHash = false
        then [hashing c] else [] := by
  simp only [ofFindings, Bool.and_eq_true, Bool.not_eq_true', List.any_eq_false,
    Bool.not_eq_true]
  split
  · rfl
  · rw [List.append_nil]

theorem nodup_ofFindings (findings : List Finding) (c : Complexity) :
    (ofFindings findings c).Nodup := by
  rw [ofFindings_eq]
  split
  · next h =>
      apply (nodup_ofKinds _).append (List.nodup_singleton _)
      intro a ha hhashing
      have hnone := h.2 a ha
      rw [List.mem_singleton.1 hhashing, mentionsHash_hashing] at hnone
      cases hnone
  · rw [List.append_nil]
    exact nodup_ofKinds _

/-- The general advice is given exactly where hashing would not be mentioned without it. -/
theorem countP_ofFindings {findings : List Finding} {c : Complexity}
    (h : c.isQuadraticOrWorse = true) : (ofFindings findings c).countP mentionsHash = 1 := by
  rw [ofFindings_eq]
  by_cases hnone : ∀ a ∈ ofKinds (findings.map Finding.kind), a.mentionsHash = false
  · have hzero : (ofKinds (findings.map Finding.kind)).countP mentionsHash = 0 := by
      rw [List.countP_eq_zero]
      intro a ha
      rw [hnone a ha]
      exact Bool.false_ne_true
    rw [if_pos ⟨h, hnone⟩, List.countP_append, hzero]
    rfl
  · have hpos : 0 < (ofKinds (findings.map Finding.kind)).countP mentionsHash := by
      rw [List.countP_pos_iff]
      simpa using hnone
    have hle := countP_ofKinds_le_one (findings.map Finding.kind)
    rw [if_neg fun hboth => hnone hboth.2, List.append_nil]
    omega

/-- **What advice some findings get.** It is that of their distinct known kinds, in the order in
which these are first found, and behind it the general advice exactly if the text is quadratic or
worse and no other mentions hashing. So no piece is given twice, a finding of an unknown kind or of
one that was found in front of it adds nothing, and where the text is quadratic or worse exactly one
piece mentions hashing. -/
theorem ofFindings_exact (findings : List Finding) (c : Complexity) :
    (∃ ks specific, FirstKnown (findings.map Finding.kind) ks ∧
      ks.map FindingKind.advice? = specific.map some ∧
      ofFindings findings c = specific ++
        if c.isQuadraticOrWorse = true ∧ ∀ a ∈ specific, a.mentionsHash = false
          then [hashing c] else []) ∧
    (ofFindings findings c).Nodup ∧
    (∀ fs gs f, findings = fs ++ gs → f.kind ∈ fs.map Finding.kind ∨ ¬ f.kind.IsKnown →
      ofFindings (fs ++ f :: gs) c = ofFindings findings c) ∧
    (c.isQuadraticOrWorse = true → (ofFindings findings c).countP mentionsHash = 1) := by
  refine ⟨?_, nodup_ofFindings findings c, ?_, countP_ofFindings⟩
  · refine ⟨_, _, firstKnown_filter _, ?_, ofFindings_eq findings c⟩
    rw [ofKinds, ← filterMap_filter_known, List.map_filterMap_some_eq_filter_map_isSome]
    symm
    rw [List.filter_eq_self, List.forall_mem_map]
    intro k hk
    exact (isSome_advice?_iff k).2 (((firstKnown_filter _).mem_iff k).1 hk).2
  · rintro fs gs f rfl hf
    have hkinds : ofKinds ((fs ++ f :: gs).map Finding.kind) = ofKinds ((fs ++ gs).map Finding.kind) := by
      rw [List.map_append, List.map_cons, ofKinds_insert hf, List.map_append]
    rw [ofFindings_eq, hkinds, ofFindings_eq]

/-- Two kinds, one of them found again, in a quadratic text. -/
theorem ofFindings_of_repeated_kind :
    let lookup : Finding := ⟨.inefficientDataStructure, [], .high, none⟩
    let nesting : Finding := ⟨.excessiveNesting, [], .medium, none⟩
    let c : Complexity := "O(n²)".toList
    lookup.kind ∈ [lookup, nesting].map Finding.kind ∧ c.isQuadraticOrWorse = true ∧
      ofFindings [lookup, nesting, lookup] c = ofFindings [lookup, nesting] c ∧
      (ofFindings [lookup, nesting] c).countP mentionsHash = 1 := by
  intro lookup nesting c
  have hfound : lookup.kind ∈ [lookup, nesting].map Finding.kind := by decide
  have hslow : c.isQuadraticOrWorse = true := by decide
  obtain ⟨-, -, hinsert, hone⟩ := ofFindings_exact [lookup, nesting] c
  exact ⟨hfound, hslow, hinsert [lookup, nesting] [] lookup rfl (Or.inl hfound), hone hslow⟩

end Advice
end Refinery
