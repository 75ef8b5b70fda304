import Refinery.Proofs.Text.Lines

/-!
Parts of a text. A part occurs where it is a contiguous piece, and one without a newline does not
reach past the end of a line.
-/

namespace Refinery.Text

/-- A part does not reach into a text that begins with a character which it has not. -/
theorem isPrefixOf_append {part u : Text} (h : ∀ c ∈ u.head?, c ∉ part) (t : Text) :
    part.isPrefixOf (t ++ u) = part.isPrefixOf t := by
  induction part generalizing t with
  | nil => rw [List.isPrefixOf_nil_left, List.isPrefixOf_nil_left]
  | cons c part ih =>
      cases t with
      | nil =>
          cases u with
          | nil => rfl
          | cons d u =>
              have hc : (c == d) = false := by
                rw [beq_eq_false_iff_ne]
                exact fun e => h d rfl (e ▸ List.mem_cons_self)
              rw [List.nil_append, List.isPrefixOf_cons_cons, hc]
              rfl
      | cons d t =>
          rw [List.cons_append, List.isPrefixOf_cons_cons, List.isPrefixOf_cons_cons,
            ih fun e he hmem => h e he (List.mem_cons_of_mem c hmem)]

/-- A text without a newline does not reach past one. -/
theorem isPrefixOf_append_newline {part : Text} (h : '\n' ∉ part) (t u : Text) :
    part.isPrefixOf (t ++ '\n' :: u) = part.isPrefixOf t :=
  isPrefixOf_append (fun _ hc => Option.some.inj hc ▸ h) t

theorem after?_append (part t : Text) : after? part (part ++ t) = some t := by
  have hprefix : part.isPrefixOf (part ++ t) = true :=
    List.isPrefixOf_iff_prefix.2 (List.prefix_append part t)
  rw [after?, if_pos hprefix, List.drop_left]

theorem after?_eq_some_iff {part t u : Text} : after? part t = some u ↔ t = part ++ u := by
  constructor
  · intro h
    rw [after?] at h
    split at h
    · next hprefix =>
        obtain ⟨rest, rfl⟩ := List.isPrefixOf_iff_prefix.1 hprefix
        rw [List.drop_left, Option.some.injEq] at h
        rw [h]
    · cases h
  · rintro rfl
    exact after?_append part u

/-- A text is what it is cut into around a part. -/
theorem eq_of_cut? {part t a r : Text} (h : cut? part t = some (a, r)) :
    t = a ++ (part ++ r) := by
  induction t generalizing a with
  | nil =>
      rw [cut?] at h
      split at h
      · next hempty =>
          obtain ⟨rfl, rfl⟩ := Prod.mk.inj (Option.some.inj h)
          rw [List.isEmpty_iff.1 hempty]
          rfl
      · cases h
  | cons c t ih =>
      rw [cut?] at h
      cases hhere : after? part (c :: t) with
      | some rest =>
          simp only [hhere] at h
          obtain ⟨rfl, rfl⟩ := Prod.mk.inj (Option.some.inj h)
          rw [after?_eq_some_iff.1 hhere, List.nil_append]
      | none =>
          simp only [hhere] at h
          obtain ⟨⟨before, rest⟩, hcut, heq⟩ := Option.map_eq_some_iff.1 h
          obtain ⟨rfl, rfl⟩ := Prod.mk.inj heq
          rw [ih hcut, List.cons_append]

theorem after?_cons_of_ne {c d : Char} (h : d ≠ c) (part t : Text) :
    after? (d :: part) (c :: t) = none := by
  have hprefix : ¬ (d :: part).isPrefixOf (c :: t) = true := by
    rw [List.isPrefixOf_cons_cons, beq_eq_false_iff_ne.2 h]
    exact Bool.false_ne_true
  rw [after?, if_neg hprefix]

/-- A text does not end in one with another last character. -/
theorem not_endsWith_append_singleton {tail : Text} {c : Char} (hne : tail ≠ [])
    (hlast : tail.getLast? ≠ some c) (t : Text) : endsWith tail (t ++ [c]) = false := by
  obtain ⟨d, front, hd⟩ := List.exists_cons_of_ne_nil (mt List.reverse_eq_nil_iff.1 hne)
  have hdc : d ≠ c := by
    intro e
    rw [← List.head?_reverse, hd, e] at hlast
    exact hlast rfl
  rw [endsWith, hd, List.reverse_append, List.reverse_singleton, List.singleton_append,
    List.isPrefixOf_cons_cons, beq_eq_false_iff_ne.2 hdc, Bool.false_and]

/-- A part without a newline that stands behind a newline for the first time is found there. -/
theorem cut?_append_newline {part t : Text} (hpart : '\n' ∉ part) (hne : part ≠ [])
    (h : hasPart part t = false) (u : Text) :
    cut? part (t ++ '\n' :: (part ++ u)) = some (t ++ ['\n'], u) := by
  induction t with
  | nil =>
      have hfirst : cut? part (part ++ u) = some ([], u) := by
        obtain ⟨c, cs, rfl⟩ := List.exists_cons_of_ne_nil hne
        rw [List.cons_append, cut?, ← List.cons_append, after?_append]
      have hnone : after? part ('\n' :: (part ++ u)) = none := by
        have hprefix := isPrefixOf_append_newline hpart [] (part ++ u)
        rw [List.nil_append] at hprefix
        rw [after?, hprefix, if_neg]
        rw [List.isPrefixOf_iff_prefix, List.prefix_nil]
        exact hne
      rw [List.nil_append, cut?, hnone]
      simp only [hfirst, Option.map_some, List.nil_append]
  | cons c t ih =>
      have hcut : cut? part (c :: t) = none := by
        rwa [hasPart, Option.isSome_eq_false_iff, Option.isNone_iff_eq_none] at h
      have hhere : after? part (c :: t) = none := by
        rw [cut?] at hcut
        cases hafter : after? part (c :: t) with
        | none => rfl
        | some rest => simp [hafter] at hcut
      have hlater : hasPart part t = false := by
        rw [cut?, hhere] at hcut
        rw [hasPart, Option.isSome_eq_false_iff, Option.isNone_iff_eq_none]
        exact Option.map_eq_none_iff.1 hcut
      have hnone : after? part (c :: t ++ '\n' :: (part ++ u)) = none := by
        have hprefix : ¬ part.isPrefixOf (c :: t) = true := by
          intro hp
          rw [after?, if_pos hp] at hhere
          cases hhere
        rw [after?, isPrefixOf_append_newline hpart, if_neg hprefix]
      rw [List.cons_append] at hnone ⊢
      rw [cut?, hnone]
      simp only [ih hlater, Option.map_some, List.cons_append]

/-- The joined texts are pieces of the whole. -/
theorem infix_unlines {t : Text} {ts : List Text} (h : t ∈ ts) : t <:+: unlines ts := by
  induction ts with
  | nil => exact absurd h List.not_mem_nil
  | cons u us ih =>
      by_cases hus : us = []
      · rw [hus, List.mem_singleton] at h
        have hself : unlines (u :: us) = t := by rw [hus, h, unlines_singleton]
        exact hself ▸ List.infix_rfl
      · rw [unlines_cons u hus]
        rcases List.mem_cons.1 h with rfl | h
        · exact (List.prefix_append t _).isInfix
        · exact (ih h).trans ((List.suffix_cons _ _).trans (List.suffix_append u _)).isInfix

/-- Occurring is being a contiguous piece. -/
theorem hasPart_iff {part t : Text} : hasPart part t = true ↔ part <:+: t := by
  induction t with
  | nil =>
      rw [hasPart, cut?, List.infix_nil, ← List.isEmpty_iff]
      cases part.isEmpty <;> rfl
  | cons c t ih =>
      rw [hasPart, cut?, List.infix_cons_iff, ← ih, hasPart, after?]
      by_cases hprefix : part <+: c :: t
      · rw [if_pos (List.isPrefixOf_iff_prefix.2 hprefix)]
        exact iff_of_true rfl (Or.inl hprefix)
      · rw [if_neg (mt List.isPrefixOf_iff_prefix.1 hprefix)]
        simp only [Option.isSome_map, hprefix, false_or]

theorem not_hasPart_of_isInfix {part t u : Text} (h : hasPart part u = false) (ht : t <:+: u) :
    hasPart part t = false := by
  rw [Bool.eq_false_iff] at h ⊢
  exact mt (fun hpart => hasPart_iff.2 ((hasPart_iff.1 hpart).trans ht)) h

/-- What does not occur in a joined text occurs in none of the texts. -/
theorem not_hasPart_of_mem {part t : Text} {ts : List Text} (h : hasPart part (unlines ts) = false)
    (ht : t ∈ ts) : hasPart part t = false := not_hasPart_of_isInfix h (infix_unlines ht)

end Refinery.Text
