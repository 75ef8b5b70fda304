import Refinery.Chunk.Layout
import Refinery.Proofs.Answer.Filled

/-!
Seating a revised chunk moves lines and adds blank ones, so the filled lines are those of the
revision; only a blank chunk is put back as it was.
-/

namespace Refinery.Chunk

open Text Similarity

theorem blank_of_mem_head (ls : List Text) : ∀ l ∈ (surround ls).1, blank l = true :=
  fun _ hl => List.mem_takeWhile_imp hl

theorem blank_of_mem_tail (ls : List Text) : ∀ l ∈ (surround ls).2.2, blank l = true :=
  fun _ hl => List.mem_takeWhile_imp (List.mem_reverse.1 hl)

/-- Between the blank lines there is nothing only if all lines are blank. -/
theorem surround_eq_nil_iff {ls : List Text} :
    (surround ls).2.1 = [] ↔ ∀ l ∈ ls, blank l = true := by
  rw [surround, List.reverse_eq_nil_iff, List.dropWhile_eq_nil_iff]
  constructor
  · intro h l hl
    rw [← List.takeWhile_append_dropWhile (p := blank) (l := ls)] at hl
    rcases List.mem_append.1 hl with hl | hl
    · exact List.mem_takeWhile_imp hl
    · exact h l (List.mem_reverse.2 hl)
  · intro h l hl
    exact h l ((List.dropWhile_suffix blank).subset (List.mem_reverse.1 hl))

theorem surround_lines_eq_nil_iff {t : Text} : (surround (lines t)).2.1 = [] ↔ blank t = true := by
  rw [surround_eq_nil_iff, ← List.all_eq_true, ← blank_unlines, unlines_lines]

theorem blank_indentation (line : Text) : blank (indentation line) = true := List.all_takeWhile

theorem flatMap_filledLines_of_blank {ls : List Text} (h : ∀ l ∈ ls, blank l = true) :
    ls.flatMap filledLines = [] :=
  List.flatMap_eq_nil_iff.2 fun l hl => filledLines_eq_nil_iff.2 (h l hl)

/-- Moving lines to the right keeps the filled lines. -/
theorem flatMap_filledLines_indentBy {indent : Text} (h : blank indent = true) (ls : List Text) :
    (indentBy indent ls).flatMap filledLines = ls.flatMap filledLines := by
  rw [indentBy, List.flatMap_map]
  refine List.flatMap_congr fun l _ => ?_
  split
  · exact filledLines_blank_append l h
  · rfl

theorem reseat_of_blank {chunk : Text} (revised : Text) (h : blank chunk = true) :
    reseat chunk revised = chunk := by
  have hbody : (surround (lines chunk)).2.1 = [] := surround_lines_eq_nil_iff.2 h
  rw [reseat]
  split
  · rfl
  · next heq =>
      rw [heq] at hbody
      exact absurd hbody (List.cons_ne_nil _ _)

/-- **Seating a revision in the place of a chunk keeps the filled lines of the revision.** -/
theorem filledLines_reseat {chunk : Text} (revised : Text) (h : blank chunk = false) :
    filledLines (reseat chunk revised) = filledLines revised := by
  rw [reseat]
  split
  · next heq =>
      have hblank : blank chunk = true := surround_lines_eq_nil_iff.1 (by rw [heq])
      rw [hblank] at h
      contradiction
  · next head first chunkRest tail heq =>
      have hhead : ∀ l ∈ head, blank l = true := by
        have h := blank_of_mem_head (lines chunk)
        rwa [heq] at h
      have htail : ∀ l ∈ tail, blank l = true := by
        have h := blank_of_mem_tail (lines chunk)
        rwa [heq] at h
      obtain ⟨body, rest, hrevised⟩ := exists_lines (trimChar '\n' revised)
      have hfirst : filledLines (indentation first ++ trimLeft body) = filledLines body := by
        obtain ⟨a, ha, hbody⟩ := exists_trimLeft body
        rw [filledLines_blank_append _ (blank_indentation first), ← filledLines_blank_append _ ha,
          ← hbody]
      rw [hrevised]
      simp only
      rw [filledLines_unlines, List.flatMap_append, List.flatMap_append, List.flatMap_append,
        flatMap_filledLines_of_blank hhead, flatMap_filledLines_of_blank htail,
        List.flatMap_singleton, hfirst, List.nil_append, List.append_nil]
      have hrest : ∀ moved : Bool,
          (if moved then indentBy (indentation first) rest else rest).flatMap filledLines =
            rest.flatMap filledLines := by
        intro moved
        cases moved with
        | false => rfl
        | true => exact flatMap_filledLines_indentBy (blank_indentation first) rest
      rw [hrest, ← List.flatMap_cons, ← hrevised, ← filledLines_unlines, unlines_lines,
        filledLines_trimChar_newline]

end Refinery.Chunk
