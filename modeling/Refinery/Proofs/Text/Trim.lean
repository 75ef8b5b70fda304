import Mathlib.Data.List.DropRight
import Refinery.Proofs.Text.Lines

/-!
Trimming. What trimming takes away is blank, and what is left begins and ends with a character that
is not, so blanks around a text do not change its trimmed form.
-/

namespace Refinery.Text

@[simp] theorem blank_nil : blank [] = true := rfl

@[simp] theorem blank_cons (c : Char) (t : Text) : blank (c :: t) = (isBlank c && blank t) := rfl

@[simp] theorem blank_append (t u : Text) : blank (t ++ u) = (blank t && blank u) :=
  List.all_append

@[simp] theorem blank_reverse (t : Text) : blank t.reverse = blank t := List.all_reverse

theorem blank_unlines (ts : List Text) : blank (unlines ts) = ts.all blank := by
  induction ts with
  | nil => rfl
  | cons t ts ih =>
      by_cases hts : ts = []
      · rw [hts, unlines_singleton, List.all_cons, List.all_nil, Bool.and_true]
      · rw [unlines_cons t hts, blank_append, blank_cons, ih, List.all_cons]
        rfl

theorem isBlank_of_mem {t : Text} (h : blank t = true) : ∀ c ∈ t, isBlank c = true :=
  List.all_eq_true.1 h

@[simp] theorem trimLeft_nil : trimLeft [] = [] := rfl

theorem trimLeft_cons_of_isBlank {c : Char} (t : Text) (h : isBlank c = true) :
    trimLeft (c :: t) = trimLeft t := List.dropWhile_cons_of_pos h

theorem trimLeft_cons_of_not_isBlank {c : Char} (t : Text) (h : isBlank c = false) :
    trimLeft (c :: t) = c :: t := List.dropWhile_cons_of_neg (by simp [h])

theorem trimLeft_blank_append {a : Text} (t : Text) (h : blank a = true) :
    trimLeft (a ++ t) = trimLeft t := List.dropWhile_append_of_pos (isBlank_of_mem h)

theorem trimLeft_append_cons {c : Char} (t u : Text) (h : isBlank c = false) :
    trimLeft (t ++ c :: u) = trimLeft t ++ c :: u := by
  have hu : (c :: u).dropWhile isBlank = c :: u := trimLeft_cons_of_not_isBlank u h
  rw [trimLeft, List.dropWhile_append, hu, ← trimLeft]
  split
  · next hempty => rw [List.isEmpty_iff.1 hempty, List.nil_append]
  · rfl

/-- A text is its leading blanks and the rest. -/
theorem exists_trimLeft (t : Text) : ∃ a, blank a = true ∧ t = a ++ trimLeft t :=
  ⟨t.takeWhile isBlank, List.all_takeWhile, List.takeWhile_append_dropWhile.symm⟩

theorem trimLeft_subset (t : Text) : trimLeft t ⊆ t := (List.dropWhile_suffix isBlank).subset

theorem trimLeft_eq_nil_iff {t : Text} : trimLeft t = [] ↔ blank t = true := by
  rw [trimLeft, List.dropWhile_eq_nil_iff, blank, List.all_eq_true]

/-- Where something is left, it begins with a character that is not blank. -/
theorem not_isBlank_of_trimLeft {t u : Text} {c : Char} (h : trimLeft t = c :: u) :
    isBlank c = false := by
  rw [trimLeft] at h
  have hne : t.dropWhile isBlank ≠ [] := by
    rw [h]
    exact List.cons_ne_nil c u
  have hc := List.head_dropWhile_not isBlank hne
  simpa only [h, List.head_cons] using hc

/-- Where a text is not blank, trimming on the left does not reach what follows it. -/
theorem trimLeft_append_of_not_blank {a : Text} (t : Text) (h : blank a = false) :
    trimLeft (a ++ t) = trimLeft a ++ t := by
  have hempty : (a.dropWhile isBlank).isEmpty = false := by
    rw [List.isEmpty_eq_false_iff, ← trimLeft, Ne, trimLeft_eq_nil_iff, h]
    exact Bool.false_ne_true
  rw [trimLeft, List.dropWhile_append, hempty]
  rfl

@[simp] theorem trimRight_nil : trimRight [] = [] := rfl

theorem trimRight_append_blank {b : Text} (t : Text) (h : blank b = true) :
    trimRight (t ++ b) = trimRight t := by
  rw [trimRight, trimRight, List.reverse_append,
    List.dropWhile_append_of_pos (isBlank_of_mem (by rwa [blank_reverse]))]

/-- A text is what is left and its trailing blanks. -/
theorem exists_trimRight (t : Text) : ∃ b, blank b = true ∧ t = trimRight t ++ b := by
  obtain ⟨a, ha, h⟩ := exists_trimLeft t.reverse
  refine ⟨a.reverse, by rwa [blank_reverse], ?_⟩
  rw [trimRight, ← trimLeft, ← List.reverse_append, ← h, List.reverse_reverse]

theorem trimRight_subset (t : Text) : trimRight t ⊆ t := by
  obtain ⟨b, -, h⟩ := exists_trimRight t
  intro c hc
  rw [h]
  exact List.mem_append_left b hc

theorem trimRight_eq_nil_iff {t : Text} : trimRight t = [] ↔ blank t = true := by
  rw [trimRight, List.reverse_eq_nil_iff, ← trimLeft, trimLeft_eq_nil_iff, blank_reverse]

theorem trimRight_append_cons {c : Char} (t u : Text) (h : isBlank c = false) :
    trimRight (t ++ c :: u) = t ++ c :: trimRight u := by
  have hreverse : (t ++ c :: u).reverse = u.reverse ++ c :: t.reverse := by
    rw [List.reverse_append, List.reverse_cons, List.append_assoc, List.singleton_append]
  rw [trimRight, hreverse, ← trimLeft, trimLeft_append_cons _ _ h, List.reverse_append,
    List.reverse_cons, List.reverse_reverse, List.append_assoc, List.singleton_append, trimLeft,
    trimRight]

theorem trimRight_append_of_not_blank {t : Text} (a : Text) (h : blank t = false) :
    trimRight (a ++ t) = a ++ trimRight t := by
  have hreverse : trimLeft (t.reverse ++ a.reverse) = trimLeft t.reverse ++ a.reverse :=
    trimLeft_append_of_not_blank a.reverse (by rwa [blank_reverse])
  rw [trimRight, List.reverse_append, ← trimLeft, hreverse, List.reverse_append,
    List.reverse_reverse, trimLeft, trimRight]

theorem trimRight_append_of_not_isBlank {c : Char} (t : Text) (h : isBlank c = false) :
    trimRight (t ++ [c]) = t ++ [c] := trimRight_append_cons t [] h

/-- A first character stays unless nothing but blanks follow it and it is one. -/
theorem trimRight_cons (c : Char) (t : Text) :
    trimRight (c :: t) = if isBlank c && blank t then [] else c :: trimRight t := by
  split
  · next h => exact trimRight_eq_nil_iff.2 h
  · next h =>
      by_cases ht : blank t = true
      · have hc : isBlank c = false := by simpa [ht] using h
        rw [← List.singleton_append, trimRight_append_blank [c] ht, trimRight_eq_nil_iff.2 ht]
        exact trimRight_append_of_not_isBlank [] hc
      · have hr : ¬ (t.reverse.dropWhile isBlank).isEmpty = true := by
          rw [List.isEmpty_iff, ← trimLeft, trimLeft_eq_nil_iff, blank_reverse]
          exact ht
        rw [trimRight, List.reverse_cons, List.dropWhile_append, if_neg hr, List.reverse_append,
          List.reverse_singleton, List.singleton_append, trimRight]

@[simp] theorem trim_nil : trim [] = [] := rfl

theorem trim_blank_append {a : Text} (t : Text) (h : blank a = true) : trim (a ++ t) = trim t := by
  rw [trim, trimLeft_blank_append t h, trim]

theorem trim_cons_of_isBlank {c : Char} (t : Text) (h : isBlank c = true) :
    trim (c :: t) = trim t := by
  rw [trim, trimLeft_cons_of_isBlank t h, trim]

theorem trim_append_blank {b : Text} (t : Text) (h : blank b = true) : trim (t ++ b) = trim t := by
  by_cases ht : blank t = true
  · rw [trim_blank_append b ht, trim, trim, trimLeft_eq_nil_iff.2 ht, trimLeft_eq_nil_iff.2 h]
  · obtain ⟨a, ha, hta⟩ := exists_trimLeft t
    have hne : trimLeft t ≠ [] := fun e => ht (trimLeft_eq_nil_iff.1 e)
    obtain ⟨c, u, hu⟩ := List.exists_cons_of_ne_nil hne
    have hc : isBlank c = false := not_isBlank_of_trimLeft hu
    calc trim (t ++ b) = trim (a ++ (trimLeft t ++ b)) := by rw [← List.append_assoc, ← hta]
      _ = trim (trimLeft t ++ b) := trim_blank_append _ ha
      _ = trimRight (trimLeft t ++ b) := by
          rw [hu, List.cons_append, trim, trimLeft_cons_of_not_isBlank _ hc]
      _ = trimRight (trimLeft t) := trimRight_append_blank _ h

theorem trim_eq_nil_iff {t : Text} : trim t = [] ↔ blank t = true := by
  obtain ⟨a, ha, h⟩ := exists_trimLeft t
  rw [trim, trimRight_eq_nil_iff]
  constructor
  · intro ht
    rw [h, blank_append, ha, ht]
    rfl
  · intro ht
    rw [trimLeft_eq_nil_iff.2 ht]
    rfl

/-- A text is its trimmed form between blanks. -/
theorem exists_trim (t : Text) :
    ∃ a b, blank a = true ∧ blank b = true ∧ t = a ++ trim t ++ b := by
  obtain ⟨a, ha, hta⟩ := exists_trimLeft t
  obtain ⟨b, hb, htb⟩ := exists_trimRight (trimLeft t)
  refine ⟨a, b, ha, hb, ?_⟩
  rw [List.append_assoc, trim, ← htb, ← hta]

theorem trim_trim (t : Text) : trim (trim t) = trim t := by
  obtain ⟨a, b, ha, hb, h⟩ := exists_trim t
  calc trim (trim t) = trim (a ++ trim t) := (trim_blank_append _ ha).symm
    _ = trim (a ++ trim t ++ b) := (trim_append_blank _ hb).symm
    _ = trim t := by rw [← h]

/-- A text between two characters that are no blanks is trimmed. -/
theorem trim_between {c d : Char} (hc : isBlank c = false) (hd : isBlank d = false) (t : Text) :
    trim (c :: (t ++ [d])) = c :: (t ++ [d]) := by
  rw [trim, trimLeft_cons_of_not_isBlank _ hc]
  exact trimRight_append_of_not_isBlank (c :: t) hd

theorem trimRight_trim (t : Text) : trimRight (trim t) = trim t := by
  obtain ⟨b, hb, h⟩ := exists_trimRight (trimLeft t)
  calc trimRight (trim t) = trimRight (trim t ++ b) := (trimRight_append_blank _ hb).symm
    _ = trim t := by rw [trim, ← h]

/-- What is trimmed away is blank. -/
theorem mem_trim {t : Text} {c : Char} (h : c ∈ t) (hc : isBlank c = false) : c ∈ trim t := by
  obtain ⟨a, b, ha, hb, ht⟩ := exists_trim t
  have hnot : ∀ {u : Text}, blank u = true → c ∉ u := by
    intro u hu hmem
    rw [isBlank_of_mem hu c hmem] at hc
    cases hc
  rw [ht, List.mem_append, List.mem_append] at h
  exact (h.resolve_right (hnot hb)).resolve_left (hnot ha)

theorem trim_subset (t : Text) : trim t ⊆ t := fun _ h =>
  trimLeft_subset t (trimRight_subset (trimLeft t) h)

/-- Dropping blanks at the end keeps a front in front. -/
theorem trimRight_prefix_trimRight {t u : Text} (h : t <+: u) : trimRight t <+: trimRight u := by
  obtain ⟨s, hs⟩ := List.reverse_suffix.2 h
  rw [trimRight, trimRight, List.reverse_prefix, ← hs, List.dropWhile_append]
  split
  · exact List.suffix_rfl
  · exact (List.dropWhile_suffix isBlank).trans (List.suffix_append _ _)

theorem trim_prefix_trim {t u : Text} (h : t <+: u) : trim t <+: trim u := by
  obtain ⟨s, rfl⟩ := h
  cases ht : blank t with
  | true =>
      rw [trim_eq_nil_iff.2 ht]
      exact List.nil_prefix
  | false =>
      rw [trim, trim, trimLeft_append_of_not_blank s ht]
      exact trimRight_prefix_trimRight (List.prefix_append _ s)

theorem isInfix_trim (t : Text) : trim t <:+: t := by
  obtain ⟨a, b, -, -, h⟩ := exists_trim t
  exact ⟨a, b, h.symm⟩

theorem trim_suffix_trimRight (t : Text) : trim t <:+ trimRight t := by
  cases ht : blank t with
  | true =>
      rw [trim_eq_nil_iff.2 ht]
      exact List.nil_suffix
  | false =>
      obtain ⟨a, ha, hat⟩ := exists_trimLeft t
      have hleft : blank (trimLeft t) = false := by
        rwa [hat, blank_append, ha, Bool.true_and] at ht
      have hright : trimRight t = a ++ trim t := by
        rw [trim, ← trimRight_append_of_not_blank a hleft, ← hat]
      exact ⟨a, hright.symm⟩

/-- Trimming a whole leaves of each of its pieces what trimming the piece leaves. -/
theorem trim_infix_trim {t u : Text} (h : t <:+: u) : trim t <:+: trim u := by
  obtain ⟨x, y, rfl⟩ := h
  cases ht : blank t with
  | true =>
      rw [trim_eq_nil_iff.2 ht]
      exact List.nil_infix
  | false =>
      refine List.IsInfix.trans ?_ (trim_prefix_trim (List.prefix_append (x ++ t) y)).isInfix
      cases hx : blank x with
      | true => exact (trim_blank_append t hx).symm ▸ List.infix_rfl
      | false =>
          have htrim : trim (x ++ t) = trimLeft x ++ trimRight t := by
            rw [trim, trimLeft_append_of_not_blank t hx, trimRight_append_of_not_blank _ ht]
          rw [htrim]
          exact (trim_suffix_trimRight t).isInfix.trans (List.suffix_append _ _).isInfix

/-- Dropping a blank character at both ends is undone by blanks. -/
theorem exists_trimChar {c : Char} (hc : isBlank c = true) (t : Text) :
    ∃ a b, blank a = true ∧ blank b = true ∧ t = a ++ trimChar c t ++ b := by
  have hblank : ∀ u : Text, blank (u.takeWhile (· == c)) = true := by
    intro u
    refine List.all_eq_true.2 fun d hd => ?_
    have heq : (d == c) = true := List.mem_takeWhile_imp (p := fun x => x == c) hd
    rw [eq_of_beq heq]
    exact hc
  refine ⟨t.takeWhile (· == c), ((t.dropWhile (· == c)).reverse.takeWhile (· == c)).reverse,
    hblank _, by rw [blank_reverse]; exact hblank _, ?_⟩
  rw [List.append_assoc, trimChar, ← List.reverse_append, List.takeWhile_append_dropWhile,
    List.reverse_reverse, List.takeWhile_append_dropWhile]

theorem trimLeft_of_trim {t : Text} (h : trim t = t) : trimLeft t = t := by
  have hsuffix : trimLeft t <:+ t := List.dropWhile_suffix isBlank
  refine hsuffix.eq_of_length_le ?_
  have hlength : (trim t).length ≤ (trimLeft t).length := by
    rw [trim, trimRight, List.length_reverse]
    calc ((trimLeft t).reverse.dropWhile isBlank).length ≤ (trimLeft t).reverse.length :=
          (List.dropWhile_suffix isBlank).length_le
      _ = (trimLeft t).length := List.length_reverse
  rwa [h] at hlength

theorem trimRight_of_trim {t : Text} (h : trim t = t) : trimRight t = t := by
  rw [← h, trimRight_trim]

/-- A trimmed text ends in a character that is not blank. -/
theorem not_blank_of_suffix {t u : Text} (h : trim t = t) (hu : u <:+ t) (hne : u ≠ []) :
    blank u = false := by
  rw [Bool.eq_false_iff]
  intro hblank
  obtain ⟨x, rfl⟩ := hu
  have hright : trimRight x = x ++ u := by
    rw [← trimRight_append_blank x hblank, trimRight_of_trim h]
  have hlength : (x ++ u).length ≤ x.length := by
    rw [← hright, trimRight, List.length_reverse]
    calc (x.reverse.dropWhile isBlank).length ≤ x.reverse.length :=
          (List.dropWhile_suffix isBlank).length_le
      _ = x.length := List.length_reverse
  have hpos : 0 < u.length := List.length_pos_iff.2 hne
  rw [List.length_append] at hlength
  omega

/-- A trimmed text has no copy of a blank character at its ends. -/
theorem trimChar_of_trim {c : Char} {t : Text} (hc : isBlank c = true) (h : trim t = t) :
    trimChar c t = t := by
  have hkept : ∀ {u : Text}, u.dropWhile isBlank = u → u.dropWhile (· == c) = u := by
    intro u hu
    cases u with
    | nil => rfl
    | cons d u =>
        have hd : isBlank d = false := not_isBlank_of_trimLeft hu
        refine List.dropWhile_cons_of_neg fun heq => ?_
        rw [eq_of_beq heq, hc] at hd
        cases hd
  have hright : t.reverse.dropWhile isBlank = t.reverse := by
    have hreverse := trimRight_of_trim h
    rwa [trimRight, List.reverse_eq_iff] at hreverse
  rw [trimChar, hkept (trimLeft_of_trim h), hkept hright, List.reverse_reverse]

end Refinery.Text
