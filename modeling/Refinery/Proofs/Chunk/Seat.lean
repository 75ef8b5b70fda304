import Refinery.Proofs.Chunk.Layout

/-!
Seating a revised chunk, line by line. The blank lines around the chunk and the indentation of its
first line come back, and the other lines of the revision are moved by that indentation all together
or not at all. A chunk that was only trimmed is put back but for the blanks at its end.
-/

namespace Refinery.Chunk

open Text Similarity

/-- Lines that are not all blank: blank ones, the first filled one, those up to the last filled one,
and blank ones again. -/
structure Framed (ls head : List Text) (first : Text) (rest tail : List Text) : Prop where
  lines_eq : ls = head ++ first :: (rest ++ tail)
  head_blank : ∀ l ∈ head, blank l = true
  first_filled : blank first = false
  last_filled : ∀ l ∈ rest.getLast?, blank l = false
  tail_blank : ∀ l ∈ tail, blank l = true

namespace Framed

variable {ls head rest tail : List Text} {first : Text}

theorem mem_first (h : Framed ls head first rest tail) : first ∈ ls := by
  rw [h.lines_eq]
  exact List.mem_append_right head List.mem_cons_self

theorem mem_rest (h : Framed ls head first rest tail) {l : Text} (hl : l ∈ rest) : l ∈ ls := by
  rw [h.lines_eq]
  exact List.mem_append_right head (List.mem_cons_of_mem first (List.mem_append_left tail hl))

/-- The last filled line is that of the lines behind the first, or the first itself. -/
theorem exists_last_filled (h : Framed ls head first rest tail) :
    ∃ front last, first :: rest = front ++ [last] ∧ blank last = false := by
  rcases List.eq_nil_or_concat' rest with rfl | ⟨mid, last, rfl⟩
  · exact ⟨[], first, rfl, h.first_filled⟩
  · refine ⟨first :: mid, last, by simp, h.last_filled last ?_⟩
    simp

theorem surround_eq (h : Framed ls head first rest tail) :
    surround ls = (head, first :: rest, tail) := by
  obtain ⟨front, last, hbody, hlast⟩ := h.exists_last_filled
  have hleft : ls.takeWhile blank = head := by
    rw [h.lines_eq, List.takeWhile_append_of_pos h.head_blank,
      List.takeWhile_cons_of_neg (by simp [h.first_filled]), List.append_nil]
  have hrest : ls.dropWhile blank = front ++ last :: tail := by
    rw [h.lines_eq, List.dropWhile_append_of_pos h.head_blank,
      List.dropWhile_cons_of_neg (by simp [h.first_filled]), ← List.cons_append, hbody,
      List.append_assoc, List.singleton_append]
  have hreverse : (front ++ last :: tail).reverse = tail.reverse ++ last :: front.reverse := by
    simp
  have htail : ∀ l ∈ tail.reverse, blank l = true :=
    fun l hl => h.tail_blank l (List.mem_reverse.1 hl)
  rw [surround, hleft, hrest, hreverse, List.takeWhile_append_of_pos htail,
    List.dropWhile_append_of_pos htail, List.takeWhile_cons_of_neg (by simp [hlast]),
    List.dropWhile_cons_of_neg (by simp [hlast]), List.append_nil, List.reverse_reverse,
    List.reverse_cons, List.reverse_reverse, ← hbody]

end Framed

/-- A text that is not blank has a place. -/
theorem exists_framed {t : Text} (h : blank t = false) :
    ∃ head first rest tail, Framed (lines t) head first rest tail := by
  have hne : (lines t).dropWhile blank ≠ [] := by
    rw [Ne, List.dropWhile_eq_nil_iff]
    intro hall
    rw [← unlines_lines t, blank_unlines, List.all_eq_true.2 hall] at h
    cases h
  obtain ⟨first, behind, hbehind⟩ := List.exists_cons_of_ne_nil hne
  have hfirst : blank first = false := by
    have hhead := List.head_dropWhile_not blank hne
    simpa only [hbehind, List.head_cons] using hhead
  refine ⟨(lines t).takeWhile blank, first, behind.rdropWhile blank, behind.rtakeWhile blank, ?_⟩
  refine ⟨?_, fun _ hl => List.mem_takeWhile_imp hl, hfirst, ?_,
    fun _ hl => List.mem_rtakeWhile_imp hl⟩
  · rw [List.rdropWhile_append_rtakeWhile, ← hbehind, List.takeWhile_append_dropWhile]
  · intro l hl
    have hbehindNe : behind.rdropWhile blank ≠ [] := by
      rintro hnone
      rw [hnone] at hl
      cases hl
    have hlast := List.rdropWhile_last_not blank behind hbehindNe
    rw [List.getLast?_eq_some_getLast hbehindNe, Option.mem_some] at hl
    rw [← hl]
    simpa using hlast

/-- The lines below the first of a revision, seated where `rest` is below the first of the chunk. -/
def seatedBelow (indent : Text) (rest others : List Text) : List Text :=
  if !indent.isEmpty && dedented rest others then indentBy indent others else others

theorem seatedBelow_cases (indent : Text) (rest others : List Text) :
    seatedBelow indent rest others = others ∨
      seatedBelow indent rest others = indentBy indent others := by
  unfold seatedBelow
  split
  · exact Or.inr rfl
  · exact Or.inl rfl

theorem newline_not_mem_indentation {t l : Text} (hl : l ∈ lines t) : '\n' ∉ indentation l :=
  fun h => newline_not_mem_lines hl (List.takeWhile_subset _ h)

theorem newline_not_mem_indentBy {indent : Text} {ls : List Text} (hindent : '\n' ∉ indent)
    (hls : ∀ l ∈ ls, '\n' ∉ l) : ∀ l ∈ indentBy indent ls, '\n' ∉ l := by
  intro l hl
  obtain ⟨k, hk, rfl⟩ := List.mem_map.1 hl
  split
  · exact List.not_mem_append hindent (hls k hk)
  · exact hls k hk

/-- **The lines of a seated revision**: the blank lines around the chunk, and between them the first
line at the indentation of the chunk's first line, and the others. -/
theorem Framed.lines_reseat {chunk revised top : Text} {head rest tail others : List Text}
    {first : Text} (h : Framed (lines chunk) head first rest tail)
    (hrevised : lines (trimChar '\n' revised) = top :: others) :
    lines (reseat chunk revised) = head ++ (indentation first ++ trimLeft top) ::
      (seatedBelow (indentation first) rest others ++ tail) := by
  have hseat : reseat chunk revised = unlines (head ++ (indentation first ++ trimLeft top) ::
      (seatedBelow (indentation first) rest others ++ tail)) := by
    simp only [reseat, h.surround_eq, hrevised, seatedBelow, List.append_assoc,
      List.cons_append, List.nil_append]
  have hchunk : ∀ {l : Text}, l ∈ lines chunk → '\n' ∉ l := newline_not_mem_lines
  have hlines : ∀ l ∈ top :: others, '\n' ∉ l := by
    rw [← hrevised]
    exact fun l hl => newline_not_mem_lines hl
  have hindent : '\n' ∉ indentation first := newline_not_mem_indentation h.mem_first
  have hothers : ∀ l ∈ others, '\n' ∉ l := fun l hl => hlines l (List.mem_cons_of_mem top hl)
  rw [hseat, lines_unlines_of_lines (by simp)]
  intro l hl
  rcases List.mem_append.1 hl with hl | hl
  · exact hchunk (by rw [h.lines_eq]; exact List.mem_append_left _ hl)
  rcases List.mem_cons.1 hl with rfl | hl
  · refine List.not_mem_append hindent fun hmem => ?_
    exact hlines top List.mem_cons_self (trimLeft_subset top hmem)
  rcases List.mem_append.1 hl with hl | hl
  · rcases seatedBelow_cases (indentation first) rest others with hsame | hmoved
    · exact hothers l (hsame ▸ hl)
    · exact newline_not_mem_indentBy hindent hothers l (hmoved ▸ hl)
  · refine hchunk ?_
    rw [h.lines_eq]
    exact List.mem_append_right _ (List.mem_cons_of_mem _ (List.mem_append_right _ hl))

/-- The first line of a trimmed text has no indentation. -/
theorem trimLeft_first_line {t top : Text} {others : List Text} (ht : trim t = t)
    (hlines : lines t = top :: others) : trimLeft top = top := by
  have hleft : trimLeft t = t := trimLeft_of_trim ht
  cases t with
  | nil =>
      cases hlines
      rfl
  | cons c t =>
      have hc : isBlank c = false := not_isBlank_of_trimLeft hleft
      have hnewline : c ≠ '\n' := by
        rintro rfl
        cases hc
      obtain ⟨l, ls, hl⟩ := exists_lines t
      rw [lines_cons hnewline hl] at hlines
      cases hlines
      exact trimLeft_cons_of_not_isBlank l hc

/-- A trimmed revision keeps its first line behind the indentation. -/
theorem Framed.lines_reseat_of_trim {chunk revised top : Text} {head rest tail others : List Text}
    {first : Text} (h : Framed (lines chunk) head first rest tail) (htrim : trim revised = revised)
    (hrevised : lines revised = top :: others) :
    lines (reseat chunk revised) = head ++
      (indentation first ++ top) :: (seatedBelow (indentation first) rest others ++ tail) := by
  have hinner : trimChar '\n' revised = revised := trimChar_of_trim rfl htrim
  rw [h.lines_reseat (hinner.symm ▸ hrevised), trimLeft_first_line htrim hrevised]

theorem trim_unlines_blank_append {head body : List Text} (hhead : ∀ l ∈ head, blank l = true)
    (hbody : body ≠ []) : trim (unlines (head ++ body)) = trim (unlines body) := by
  by_cases hnone : head = []
  · rw [hnone, List.nil_append]
  · rw [unlines_append hnone hbody, List.append_cons]
    refine trim_blank_append _ ?_
    rw [blank_append, blank_unlines, List.all_eq_true.2 hhead]
    rfl

theorem trim_unlines_append_blank {body tail : List Text} (htail : ∀ l ∈ tail, blank l = true)
    (hbody : body ≠ []) : trim (unlines (body ++ tail)) = trim (unlines body) := by
  by_cases hnone : tail = []
  · rw [hnone, List.append_nil]
  · rw [unlines_append hbody hnone]
    refine trim_append_blank _ ?_
    rw [blank_cons, blank_unlines, List.all_eq_true.2 htail]
    rfl

/-- What follows the first line does not depend on it. -/
theorem exists_unlines_cons (ls : List Text) :
    ∃ rest, ∀ l : Text, unlines (l :: ls) = l ++ rest := by
  by_cases hnone : ls = []
  · exact ⟨[], fun l => by rw [hnone, unlines_singleton, List.append_nil]⟩
  · exact ⟨'\n' :: unlines ls, fun l => unlines_cons l hnone⟩

variable {t first : Text} {head rest tail : List Text}

/-- Trimming leaves the lines from the first to the last that is not blank. -/
theorem Framed.trim_eq (h : Framed (lines t) head first rest tail) :
    trim t = trim (unlines (first :: rest)) := by
  calc trim t = trim (unlines (head ++ ((first :: rest) ++ tail))) := by
        rw [List.cons_append, ← h.lines_eq, unlines_lines]
    _ = trim (unlines ((first :: rest) ++ tail)) :=
        trim_unlines_blank_append h.head_blank (by simp)
    _ = trim (unlines (first :: rest)) :=
        trim_unlines_append_blank h.tail_blank (List.cons_ne_nil first rest)

theorem Framed.lines_trim_singleton (h : Framed (lines t) head first [] tail) :
    lines (trim t) = [trim first] := by
  rw [h.trim_eq, unlines_singleton]
  refine lines_of_newline_not_mem fun hmem => newline_not_mem_lines h.mem_first ?_
  exact trimLeft_subset first (trimRight_subset (trimLeft first) hmem)

/-- Of several lines the first loses its indentation and the last the blanks at its end. -/
theorem Framed.lines_trim_concat {mid : List Text} {last : Text}
    (h : Framed (lines t) head first (mid ++ [last]) tail) :
    lines (trim t) = trimLeft first :: (mid ++ [trimRight last]) := by
  obtain ⟨rest, hrest⟩ := exists_unlines_cons mid
  have hlast : blank last = false := h.last_filled last (by simp)
  have hnewline : blank ('\n' :: last) = false := by rw [blank_cons, hlast, Bool.and_false]
  -- The two ends of the text in view, so that each side of the trim meets its own line.
  have hfront : ∀ l k : Text, unlines (l :: (mid ++ [k])) = l ++ (rest ++ '\n' :: k) := by
    intro l k
    rw [← List.cons_append, unlines_append (List.cons_ne_nil l mid) (List.cons_ne_nil k []), hrest,
      unlines_singleton, List.append_assoc]
  have htrim : trim t = unlines (trimLeft first :: (mid ++ [trimRight last])) := by
    rw [h.trim_eq, hfront, hfront, trim, trimLeft_append_of_not_blank _ h.first_filled,
      ← List.append_assoc, ← List.append_assoc, trimRight_append_of_not_blank _ hnewline,
      trimRight_cons, hlast, Bool.and_false]
    rfl
  have hline : ∀ l ∈ first :: (mid ++ [last]), '\n' ∉ l := by
    intro l hl
    rcases List.mem_cons.1 hl with rfl | hl
    · exact newline_not_mem_lines h.mem_first
    · exact newline_not_mem_lines (h.mem_rest hl)
  rw [htrim, lines_unlines_of_lines (List.cons_ne_nil _ _)]
  intro l hl
  rcases List.mem_cons.1 hl with rfl | hl
  · exact fun hmem => hline first List.mem_cons_self (trimLeft_subset first hmem)
  rcases List.mem_append.1 hl with hl | hl
  · exact hline l (List.mem_cons_of_mem first (List.mem_append_left _ hl))
  · rw [List.mem_singleton.1 hl]
    exact fun hmem => hline last (by simp) (trimRight_subset last hmem)

theorem indentation_append_trimLeft (l : Text) : indentation l ++ trimLeft l = l :=
  List.takeWhile_append_dropWhile

theorem blank_trimLeft (l : Text) : blank (trimLeft l) = blank l := by
  rw [← indentation_append_trimLeft l, blank_append, blank_indentation, Bool.true_and,
    indentation_append_trimLeft]

/-- What stands behind a filled text is not part of its indentation. -/
theorem indentation_append {l : Text} (u : Text) (h : blank l = false) :
    indentation (l ++ u) = indentation l := by
  have hsplit : indentation (l ++ u) ++ (trimLeft l ++ u) = indentation l ++ (trimLeft l ++ u) := by
    rw [← trimLeft_append_of_not_blank u h, indentation_append_trimLeft,
      trimLeft_append_of_not_blank u h, ← List.append_assoc, indentation_append_trimLeft]
  exact List.append_cancel_right hsplit

theorem blank_trimRight (l : Text) : blank (trimRight l) = blank l := by
  obtain ⟨b, hb, h⟩ := exists_trimRight l
  conv_rhs => rw [h, blank_append, hb, Bool.and_true]

theorem indentation_trimRight {l : Text} (h : blank l = false) :
    indentation (trimRight l) = indentation l := by
  obtain ⟨b, -, hl⟩ := exists_trimRight l
  have hsame := indentation_append b ((blank_trimRight l).trans h)
  rw [← hl] at hsame
  exact hsame.symm

theorem leastIndent_congr {ls ms : List Text}
    (h : (ls.map fun l => (indentation l).length) = ms.map fun l => (indentation l).length) :
    leastIndent ls = leastIndent ms := by
  rw [leastIndent, h, leastIndent]

/-- Blanks at the end of the last line are no indentation. -/
theorem not_dedented_trimRight {mid : List Text} {last : Text} (h : blank last = false) :
    dedented (mid ++ [last]) (mid ++ [trimRight last]) = false := by
  have hfilter : ∀ l : Text, blank l = false →
      (mid ++ [l]).filter filled = mid.filter filled ++ [l] := by
    intro l hl
    rw [List.filter_append, List.filter_cons_of_pos (by rw [filled, hl]; rfl), List.filter_nil]
  have hleast : leastIndent ((mid ++ [trimRight last]).filter filled) =
      leastIndent ((mid ++ [last]).filter filled) := by
    apply leastIndent_congr
    rw [hfilter last h, hfilter (trimRight last) ((blank_trimRight last).trans h), List.map_append,
      List.map_append, List.map_singleton, List.map_singleton, indentation_trimRight h]
  simp only [dedented, hleast, Nat.lt_irrefl, decide_false, Bool.and_false]

/-- A trimmed chunk comes back but for the blanks at the end of its last filled line. -/
theorem Framed.exists_lines_reseat_trim {chunk : Text}
    (h : Framed (lines chunk) head first rest tail) :
    ∃ front last, first :: rest = front ++ [last] ∧
      lines (reseat chunk (trim chunk)) = head ++ front ++ trimRight last :: tail := by
  have hinner : trim (trim chunk) = trim chunk := trim_trim chunk
  rcases List.eq_nil_or_concat' rest with rfl | ⟨mid, last, rfl⟩
  · refine ⟨[], first, rfl, ?_⟩
    have hwhole : indentation first ++ trim first = trimRight first := by
      conv_rhs => rw [← indentation_append_trimLeft first]
      rw [trimRight_append_of_not_blank _ ((blank_trimLeft first).trans h.first_filled), trim]
    have hnone : seatedBelow (indentation first) [] [] = [] := by
      rcases seatedBelow_cases (indentation first) [] [] with hsame | hmoved
      · exact hsame
      · exact hmoved
    rw [h.lines_reseat_of_trim hinner h.lines_trim_singleton, hwhole, hnone, List.nil_append,
      List.append_nil]
  · refine ⟨first :: mid, last, rfl, ?_⟩
    have hlast : blank last = false := h.last_filled last (by simp)
    have hstay : seatedBelow (indentation first) (mid ++ [last]) (mid ++ [trimRight last]) =
        mid ++ [trimRight last] := by
      rw [seatedBelow, not_dedented_trimRight hlast, Bool.and_false]
      rfl
    rw [h.lines_reseat_of_trim hinner h.lines_trim_concat, hstay, indentation_append_trimLeft]
    simp

/-- **Seating changes layout only.** A blank chunk stays as it is. Around a trimmed revision of any
other chunk the blank lines of the chunk come back, its first line gets the indentation of the
chunk's first line, its other filled lines get it all or none, and nothing else changes, so the
filled lines are those of the revision; and a chunk that was only trimmed comes back but for the
blanks at the end of its last filled line. -/
theorem reseat_changes_layout (chunk : Text) :
    (blank chunk = true → ∀ revised, reseat chunk revised = chunk) ∧
    (blank chunk = false → ∃ head first rest tail, Framed (lines chunk) head first rest tail ∧
      (∀ revised, trim revised = revised →
        (∃ top others below, lines revised = top :: others ∧
          (below = others ∨ below = indentBy (indentation first) others) ∧
          lines (reseat chunk revised) =
            head ++ (indentation first ++ top) :: (below ++ tail)) ∧
        filledLines (reseat chunk revised) = filledLines revised) ∧
      ∃ front last, first :: rest = front ++ [last] ∧
        lines (reseat chunk (trim chunk)) = head ++ front ++ trimRight last :: tail) := by
  refine ⟨fun hblank revised => reseat_of_blank revised hblank, fun hfilled => ?_⟩
  obtain ⟨head, first, rest, tail, h⟩ := exists_framed hfilled
  refine ⟨head, first, rest, tail, h, ?_, h.exists_lines_reseat_trim⟩
  intro revised htrim
  obtain ⟨top, others, hrevised⟩ := exists_lines revised
  refine ⟨⟨top, others, seatedBelow (indentation first) rest others, hrevised, ?_, ?_⟩,
    filledLines_reseat revised hfilled⟩
  · exact seatedBelow_cases (indentation first) rest others
  · exact h.lines_reseat_of_trim htrim hrevised

/-- A method of a class between blank lines, one of them with blanks on it, and a revision whose
body was moved to the left; the chunk itself without the blanks around it; a chunk of blanks. -/
theorem reseat_changes_layout_of_method :
    let chunk : Text := " \n    def f():\n\n        return 1 \n\n".toList
    let revised : Text := "def f():\n\n    return 2".toList
    blank chunk = false ∧ trim revised = revised ∧
      filledLines (reseat chunk revised) = filledLines revised ∧
      reseat chunk revised = " \n    def f():\n\n        return 2\n\n".toList ∧
      reseat chunk (trim chunk) = " \n    def f():\n\n        return 1\n\n".toList ∧
      blank " \n".toList = true ∧ reseat " \n".toList revised = " \n".toList := by
  intro chunk revised
  have hfilled : blank chunk = false := by decide
  have htrim : trim revised = revised := by decide
  obtain ⟨head, first, rest, tail, -, hrevised, -⟩ := (reseat_changes_layout chunk).2 hfilled
  exact ⟨hfilled, htrim, (hrevised revised htrim).2, by decide, by decide, by decide,
    (reseat_changes_layout " \n".toList).1 (by decide) revised⟩

end Refinery.Chunk
