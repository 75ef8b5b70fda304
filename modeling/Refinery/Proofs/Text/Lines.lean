import Mathlib.Data.List.Basic
import Refinery.Text.Basic

/-!
Lines of a text. Cutting at newlines undoes joining with newlines, and a text cut in front of a
newline has the lines of its two parts.
-/

namespace Refinery.Text

theorem lines_newline_cons (t : Text) : lines ('\n' :: t) = [] :: lines t := by
  rw [lines, if_pos rfl]

theorem lines_cons {c : Char} {t l : Text} {ls : List Text} (hc : c ≠ '\n')
    (h : lines t = l :: ls) : lines (c :: t) = (c :: l) :: ls := by
  rw [lines, if_neg hc, h]

/-- A text has a first line. -/
theorem exists_lines (t : Text) : ∃ l ls, lines t = l :: ls :=
  List.exists_cons_of_ne_nil (lines_ne_nil t)

theorem newline_not_mem_lines {t : Text} : ∀ {l : Text}, l ∈ lines t → '\n' ∉ l := by
  induction t with
  | nil =>
      intro l hl
      rw [List.mem_singleton.1 hl]
      exact List.not_mem_nil
  | cons c t ih =>
      intro l hl
      obtain ⟨m, ms, hm⟩ := exists_lines t
      by_cases hc : c = '\n'
      · rw [hc, lines_newline_cons] at hl
        rcases List.mem_cons.1 hl with rfl | hl
        · exact List.not_mem_nil
        · exact ih hl
      · rw [lines_cons hc hm] at hl
        rw [hm] at ih
        rcases List.mem_cons.1 hl with rfl | hl
        · intro h
          rcases List.mem_cons.1 h with h | h
          · exact hc h.symm
          · exact ih List.mem_cons_self h
        · exact ih (List.mem_cons_of_mem _ hl)

theorem lines_of_newline_not_mem {t : Text} (h : '\n' ∉ t) : lines t = [t] := by
  induction t with
  | nil => rfl
  | cons c t ih =>
      have hc : c ≠ '\n' := fun e => h (e ▸ List.mem_cons_self)
      exact lines_cons hc (ih fun m => h (List.mem_cons_of_mem _ m))

/-- A text is cut in front of each newline. -/
theorem lines_append_newline (a b : Text) : lines (a ++ '\n' :: b) = lines a ++ lines b := by
  induction a with
  | nil => exact lines_newline_cons b
  | cons c a ih =>
      by_cases hc : c = '\n'
      · rw [hc, List.cons_append, lines_newline_cons, lines_newline_cons, ih]
        rfl
      · obtain ⟨l, ls, hl⟩ := exists_lines a
        rw [hl] at ih
        rw [List.cons_append, lines_cons hc hl, lines_cons hc ih]
        rfl

/-- Text without a newline goes on the last line. -/
theorem exists_lines_append {t u : Text} (hu : '\n' ∉ u) :
    ∃ front last, lines t = front ++ [last] ∧ lines (t ++ u) = front ++ [last ++ u] := by
  induction t with
  | nil => exact ⟨[], [], rfl, lines_of_newline_not_mem hu⟩
  | cons c t ih =>
      obtain ⟨front, last, ht, htu⟩ := ih
      by_cases hc : c = '\n'
      · refine ⟨[] :: front, last, ?_, ?_⟩
        · rw [hc, lines_newline_cons, ht]
          rfl
        · rw [hc, List.cons_append, lines_newline_cons, htu]
          rfl
      · cases front with
        | nil => exact ⟨[], c :: last, lines_cons hc ht, lines_cons hc htu⟩
        | cons l front => exact ⟨(c :: l) :: front, last, lines_cons hc ht, lines_cons hc htu⟩

@[simp] theorem unlines_nil : unlines [] = [] := rfl

@[simp] theorem unlines_singleton (t : Text) : unlines [t] = t := rfl

theorem unlines_cons {ts : List Text} (t : Text) (h : ts ≠ []) :
    unlines (t :: ts) = t ++ '\n' :: unlines ts := by
  obtain ⟨u, us, rfl⟩ := List.exists_cons_of_ne_nil h
  simp only [unlines, join, List.append_assoc, List.singleton_append]

theorem unlines_append {ts us : List Text} (ht : ts ≠ []) (hu : us ≠ []) :
    unlines (ts ++ us) = unlines ts ++ '\n' :: unlines us := by
  induction ts with
  | nil => exact absurd rfl ht
  | cons t ts ih =>
      by_cases hts : ts = []
      · rw [hts, List.singleton_append, unlines_cons t hu, unlines_singleton]
      · rw [List.cons_append, unlines_cons t (List.append_ne_nil_of_left_ne_nil hts us),
          unlines_cons t hts, ih hts, List.append_assoc, List.cons_append]

/-- The lines of joined texts are those of the texts in order. -/
theorem lines_unlines {ts : List Text} (h : ts ≠ []) : lines (unlines ts) = ts.flatMap lines := by
  induction ts with
  | nil => exact absurd rfl h
  | cons t ts ih =>
      by_cases hts : ts = []
      · rw [hts, unlines_singleton, List.flatMap_singleton]
      · rw [unlines_cons t hts, lines_append_newline, ih hts, List.flatMap_cons]

/-- Joining lines and cutting again gives the lines back. -/
theorem lines_unlines_of_lines {ls : List Text} (h : ls ≠ []) (hn : ∀ l ∈ ls, '\n' ∉ l) :
    lines (unlines ls) = ls := by
  rw [lines_unlines h, List.flatMap_congr fun l hl => lines_of_newline_not_mem (hn l hl),
    List.flatMap_singleton']

/-- Two texts with the same lines are the same. -/
theorem eq_of_lines_eq {t u : Text} (h : lines t = lines u) : t = u := by
  rw [← unlines_lines t, h, unlines_lines]

end Refinery.Text
