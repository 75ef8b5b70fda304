import Mathlib.Data.List.Basic
import Refinery.Answer.Similarity
import Refinery.Proofs.Text.Lines
import Refinery.Proofs.Text.Trim

/-!
The filled lines of a text, trimmed: what is left of it when layout is disregarded. Blanks around a
text, blanks at the ends of its lines and its blank lines do not count, and the filled lines of
joined texts are those of the texts in order.
-/

namespace Refinery.Similarity

open Text

/-- The trimmed forms of the lines that are not blank. -/
def filledOf (ls : List Text) : List Text := (ls.map trim).filter (!·.isEmpty)

theorem filledLines_eq (t : Text) : filledLines t = filledOf (lines t) := rfl

@[simp] theorem filledOf_append (ls ms : List Text) :
    filledOf (ls ++ ms) = filledOf ls ++ filledOf ms := by
  simp only [filledOf, List.map_append, List.filter_append]

theorem filledOf_cons (l : Text) (ls : List Text) :
    filledOf (l :: ls) = filledOf [l] ++ filledOf ls := filledOf_append [l] ls

/-- Only the trimmed forms of lines matter. -/
theorem filledOf_congr {ls ms : List Text} (h : ls.map trim = ms.map trim) :
    filledOf ls = filledOf ms := by
  rw [filledOf, filledOf, h]

theorem filledOf_singleton_of_blank {l : Text} (h : blank l = true) : filledOf [l] = [] := by
  rw [filledOf, List.map_singleton, trim_eq_nil_iff.2 h]
  rfl

theorem filledLines_append_newline (t u : Text) :
    filledLines (t ++ '\n' :: u) = filledLines t ++ filledLines u := by
  rw [filledLines_eq, lines_append_newline, filledOf_append]
  rfl

/-- The filled lines of joined texts are those of the texts in order. -/
theorem filledLines_unlines (ts : List Text) :
    filledLines (unlines ts) = ts.flatMap filledLines := by
  by_cases h : ts = []
  · rw [h]
    rfl
  · rw [filledLines_eq, lines_unlines h]
    clear h
    induction ts with
    | nil => rfl
    | cons t ts ih => rw [List.flatMap_cons, filledOf_append, ih, List.flatMap_cons, filledLines_eq]

theorem filledLines_blank_append {a : Text} (t : Text) (h : blank a = true) :
    filledLines (a ++ t) = filledLines t := by
  induction a with
  | nil => rfl
  | cons c a ih =>
      rw [blank_cons, Bool.and_eq_true] at h
      rw [← ih h.2]
      by_cases hc : c = '\n'
      · rw [filledLines_eq, hc, List.cons_append, lines_newline_cons, filledOf_cons,
          filledOf_singleton_of_blank rfl]
        rfl
      · obtain ⟨l, ls, hl⟩ := exists_lines (a ++ t)
        rw [filledLines_eq, filledLines_eq, List.cons_append, lines_cons hc hl, hl]
        exact filledOf_congr (by rw [List.map_cons, List.map_cons, trim_cons_of_isBlank l h.1])

theorem filledLines_append_singleton {c : Char} (t : Text) (h : isBlank c = true) :
    filledLines (t ++ [c]) = filledLines t := by
  by_cases hc : c = '\n'
  · rw [hc, filledLines_append_newline]
    exact List.append_nil _
  · have hu : '\n' ∉ [c] := fun hm => hc (List.mem_singleton.1 hm).symm
    obtain ⟨front, last, ht, htu⟩ := exists_lines_append (t := t) hu
    rw [filledLines_eq, filledLines_eq, ht, htu]
    have hb : blank [c] = true := by simp [h]
    exact filledOf_congr (by simp only [List.map_append, List.map_singleton, trim_append_blank last hb])

theorem filledLines_append_blank {b : Text} (t : Text) (h : blank b = true) :
    filledLines (t ++ b) = filledLines t := by
  induction b generalizing t with
  | nil => rw [List.append_nil]
  | cons c b ih =>
      rw [blank_cons, Bool.and_eq_true] at h
      rw [← List.singleton_append, ← List.append_assoc, ih _ h.2,
        filledLines_append_singleton t h.1]

theorem filledLines_trim (t : Text) : filledLines (trim t) = filledLines t := by
  obtain ⟨a, b, ha, hb, h⟩ := exists_trim t
  calc filledLines (trim t) = filledLines (a ++ trim t ++ b) := by
        rw [filledLines_append_blank _ hb, filledLines_blank_append _ ha]
    _ = filledLines t := by rw [← h]

theorem filledLines_trimRight (t : Text) : filledLines (trimRight t) = filledLines t := by
  obtain ⟨b, hb, h⟩ := exists_trimRight t
  calc filledLines (trimRight t) = filledLines (trimRight t ++ b) :=
        (filledLines_append_blank _ hb).symm
    _ = filledLines t := by rw [← h]

theorem filledLines_trimChar_newline (t : Text) :
    filledLines (trimChar '\n' t) = filledLines t := by
  obtain ⟨a, b, ha, hb, h⟩ := exists_trimChar (c := '\n') rfl t
  calc filledLines (trimChar '\n' t) = filledLines (a ++ trimChar '\n' t ++ b) := by
        rw [filledLines_append_blank _ hb, filledLines_blank_append _ ha]
    _ = filledLines t := by rw [← h]

/-- A text without filled lines is blank. -/
theorem filledLines_eq_nil_iff {t : Text} : filledLines t = [] ↔ blank t = true := by
  constructor
  · intro h
    rw [← unlines_lines t, blank_unlines, List.all_eq_true]
    intro l hl
    cases hb : blank l with
    | true => rfl
    | false =>
        have hmem : trim l ∈ filledLines t := by
          rw [filledLines_eq, filledOf, List.mem_filter]
          refine ⟨List.mem_map_of_mem hl, ?_⟩
          have hne : trim l ≠ [] := fun e => by simp [trim_eq_nil_iff.1 e] at hb
          simpa using hne
        rw [h] at hmem
        exact absurd hmem List.not_mem_nil
  · intro h
    rw [← List.append_nil t, filledLines_blank_append [] h]
    rfl

/-- The text is the same up to blanks at the ends of its lines and around it. -/
theorem filledLines_normalized (t : Text) : filledLines (normalized t) = filledLines t := by
  have hline : ∀ l ∈ lines t, filledLines (trimRight l) = filledLines l :=
    fun l _ => filledLines_trimRight l
  rw [normalized, filledLines_trim, filledLines_unlines, List.flatMap_map,
    List.flatMap_congr hline, ← filledLines_unlines, unlines_lines]

theorem filledLines_of_unchanged {t u : Text} (h : unchanged t u = true) :
    filledLines t = filledLines u := by
  rw [← filledLines_normalized t, eq_of_beq h, filledLines_normalized]

theorem normalized_blank_append {a : Text} (t : Text) (h : blank a = true) :
    normalized (a ++ t) = normalized t := by
  induction a with
  | nil => rfl
  | cons c a ih =>
      rw [blank_cons, Bool.and_eq_true] at h
      rw [← ih h.2]
      obtain ⟨l, ls, hl⟩ := exists_lines (a ++ t)
      by_cases hc : c = '\n'
      · have hne : (lines (a ++ t)).map trimRight ≠ [] := by simp [lines_ne_nil]
        rw [normalized, hc, List.cons_append, lines_newline_cons, List.map_cons, trimRight_nil,
          unlines_cons [] hne, List.nil_append, trim_cons_of_isBlank _ rfl, normalized]
      · rw [normalized, normalized, List.cons_append, lines_cons hc hl, hl, List.map_cons,
          List.map_cons, trimRight_cons]
        by_cases hb : blank l = true
        · rw [if_pos (by simp [h.1, hb]), trimRight_eq_nil_iff.2 hb]
        · rw [if_neg (by simp [hb])]
          cases ls with
          | nil =>
              rw [List.map_nil, unlines_singleton, unlines_singleton, trim_cons_of_isBlank _ h.1]
          | cons m ms =>
              rw [unlines_cons _ (by simp), unlines_cons _ (by simp), List.cons_append,
                trim_cons_of_isBlank _ h.1]

theorem normalized_append_singleton {c : Char} (t : Text) (h : isBlank c = true) :
    normalized (t ++ [c]) = normalized t := by
  by_cases hc : c = '\n'
  · have hne : (lines t).map trimRight ≠ [] := by simp [lines_ne_nil]
    rw [normalized, hc, lines_append_newline, List.map_append, unlines_append hne (by simp [lines])]
    exact trim_append_blank _ rfl
  · have hu : '\n' ∉ [c] := fun hm => hc (List.mem_singleton.1 hm).symm
    obtain ⟨front, last, ht, htu⟩ := exists_lines_append (t := t) hu
    have hb : blank [c] = true := by simp [h]
    rw [normalized, normalized, ht, htu]
    simp only [List.map_append, List.map_singleton, trimRight_append_blank last hb]

theorem normalized_append_blank {b : Text} (t : Text) (h : blank b = true) :
    normalized (t ++ b) = normalized t := by
  induction b generalizing t with
  | nil => rw [List.append_nil]
  | cons c b ih =>
      rw [blank_cons, Bool.and_eq_true] at h
      rw [← List.singleton_append, ← List.append_assoc, ih _ h.2,
        normalized_append_singleton t h.1]

/-- Trimming changes nothing that counts. -/
theorem unchanged_trim (t : Text) : unchanged t (trim t) = true := by
  obtain ⟨a, b, ha, hb, h⟩ := exists_trim t
  rw [unchanged, beq_iff_eq]
  calc normalized t = normalized (a ++ trim t ++ b) := by rw [← h]
    _ = normalized (trim t) := by rw [normalized_append_blank _ hb, normalized_blank_append _ ha]

end Refinery.Similarity
