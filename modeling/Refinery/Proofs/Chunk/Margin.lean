import Refinery.Proofs.Chunk.Seat

/-!
A chunk that comes back without the margin that its lines share. Seating sees that the lines below
the first have moved to the left, and moves them by the indentation of the first line. That undoes
the loss where the first line stands at the margin. Where it is indented further, as behind a cut in
the middle of a body, the lines below it end up too far to the right.
-/

namespace Refinery.Chunk

open Text

/-- Takes a margin away from the filled lines. -/
def dedentBy (margin : Text) (ls : List Text) : List Text :=
  ls.map fun l => if filled l then l.drop margin.length else l

/-- A text without a margin and without the blanks around it. -/
def withoutMargin (margin t : Text) : Text := trim (unlines (dedentBy margin (lines t)))

/-- The indentation of every filled line begins with the margin. -/
def OnMargin (margin : Text) (ls : List Text) : Prop :=
  ∀ l ∈ ls, filled l = true → margin <+: indentation l

theorem filled_iff {l : Text} : filled l = true ↔ blank l = false := by
  rw [filled, Bool.not_eq_true']

section Margin

variable {margin l : Text} {ls : List Text}

theorem dedentBy_append (margin : Text) (ls ks : List Text) :
    dedentBy margin (ls ++ ks) = dedentBy margin ls ++ dedentBy margin ks := List.map_append

theorem dedentBy_cons_of_filled (ls : List Text) (h : filled l = true) :
    dedentBy margin (l :: ls) = l.drop margin.length :: dedentBy margin ls := by
  rw [dedentBy, List.map_cons, if_pos h, dedentBy]

theorem dedentBy_cons_of_not_filled (ls : List Text) (h : ¬ filled l = true) :
    dedentBy margin (l :: ls) = l :: dedentBy margin ls := by
  rw [dedentBy, List.map_cons, if_neg h, dedentBy]

theorem dedentBy_of_blank (margin : Text) (h : ∀ l ∈ ls, blank l = true) :
    dedentBy margin ls = ls := by
  refine (List.map_congr_left fun l hl => ?_).trans (List.map_id ls)
  rw [filled, h l hl]
  rfl

theorem filter_filled_of_blank (h : ∀ l ∈ ls, blank l = true) : ls.filter filled = [] := by
  refine List.filter_eq_nil_iff.2 fun l hl => ?_
  rw [filled, h l hl]
  exact Bool.false_ne_true

theorem drop_of_margin (h : margin <+: indentation l) : margin ++ l.drop margin.length = l := by
  obtain ⟨u, hu⟩ := h
  obtain ⟨v, hv⟩ : ∃ v, l = margin ++ v :=
    ⟨u ++ trimLeft l, by rw [← List.append_assoc, hu, indentation_append_trimLeft]⟩
  rw [hv, List.drop_left]

theorem blank_margin (h : margin <+: indentation l) : blank margin = true := by
  obtain ⟨u, hu⟩ := h
  have hindent := blank_indentation l
  rw [← hu, blank_append, Bool.and_eq_true] at hindent
  exact hindent.1

theorem blank_drop (h : margin <+: indentation l) : blank (l.drop margin.length) = blank l := by
  conv_rhs => rw [← drop_of_margin h, blank_append, blank_margin h, Bool.true_and]

theorem filled_drop (h : margin <+: indentation l) : filled (l.drop margin.length) = filled l := by
  rw [filled, filled, blank_drop h]

theorem indentation_drop (h : margin <+: indentation l) :
    margin ++ indentation (l.drop margin.length) = indentation l := by
  conv_rhs => rw [← drop_of_margin h]
  exact (List.takeWhile_append_of_pos (isBlank_of_mem (blank_margin h))).symm

theorem OnMargin.filter_dedentBy (h : OnMargin margin ls) :
    (dedentBy margin ls).filter filled = (ls.filter filled).map (·.drop margin.length) := by
  induction ls with
  | nil => rfl
  | cons l ls ih =>
      have hls := ih fun k hk => h k (List.mem_cons_of_mem l hk)
      by_cases hl : filled l = true
      · have hdrop : filled (l.drop margin.length) = true :=
          (filled_drop (h l List.mem_cons_self hl)).trans hl
        rw [dedentBy_cons_of_filled ls hl, List.filter_cons_of_pos hdrop,
          List.filter_cons_of_pos hl, List.map_cons, hls]
      · rw [dedentBy_cons_of_not_filled ls hl, List.filter_cons_of_neg hl,
          List.filter_cons_of_neg hl, hls]

/-- Moving the lines to the right again puts the indentation in the place of the margin. -/
theorem OnMargin.indentBy_dedentBy (h : OnMargin margin ls) (indent : Text) :
    indentBy indent (dedentBy margin ls) =
      ls.map fun l => if filled l then indent ++ l.drop margin.length else l := by
  rw [indentBy, dedentBy, List.map_map]
  refine List.map_congr_left fun l hl => ?_
  cases hfilled : filled l with
  | true =>
      have hdrop : filled (l.drop margin.length) = true :=
        (filled_drop (h l hl hfilled)).trans hfilled
      simp only [Function.comp_apply, hfilled, if_true, hdrop]
  | false => simp only [Function.comp_apply, hfilled, Bool.false_eq_true, if_false]

theorem OnMargin.indentBy_margin (h : OnMargin margin ls) :
    indentBy margin (dedentBy margin ls) = ls := by
  rw [h.indentBy_dedentBy]
  refine (List.map_congr_left fun l hl => ?_).trans (List.map_id ls)
  split
  · next hfilled => exact drop_of_margin (h l hl hfilled)
  · rfl

theorem leastIndent_cons (l : Text) (ls : List Text) : leastIndent (l :: ls) =
    (ls.map fun k => (indentation k).length).foldl min (indentation l).length := rfl

theorem foldl_min_add (k n : Nat) (ns : List Nat) :
    (ns.map (k + ·)).foldl min (k + n) = k + ns.foldl min n := by
  induction ns generalizing n with
  | nil => rfl
  | cons a ns ih => rw [List.map_cons, List.foldl_cons, List.foldl_cons, Nat.add_min_add_left, ih]

/-- All lines lose as much indentation as the margin has, so the least one does. -/
theorem leastIndent_drop (hne : ls ≠ []) (h : ∀ l ∈ ls, margin <+: indentation l) :
    leastIndent ls = margin.length + leastIndent (ls.map (·.drop margin.length)) := by
  have hlength : ∀ l ∈ ls, (indentation l).length =
      margin.length + (indentation (l.drop margin.length)).length := by
    intro l hl
    rw [← List.length_append, indentation_drop (h l hl)]
  obtain ⟨l, ks, rfl⟩ := List.exists_cons_of_ne_nil hne
  have hrest : ks.map (fun k => (indentation k).length) =
      ((ks.map (·.drop margin.length)).map fun k => (indentation k).length).map
        (margin.length + ·) := by
    rw [List.map_map, List.map_map]
    exact List.map_congr_left fun k hk => hlength k (List.mem_cons_of_mem l hk)
  rw [List.map_cons, leastIndent_cons, leastIndent_cons, hlength l List.mem_cons_self, hrest,
    foldl_min_add]

end Margin

theorem lines_unlines_dedentBy (margin t : Text) :
    lines (unlines (dedentBy margin (lines t))) = dedentBy margin (lines t) := by
  refine lines_unlines_of_lines ?_ fun l hl => ?_
  · rw [dedentBy, Ne, List.map_eq_nil_iff]
    exact lines_ne_nil t
  · obtain ⟨k, hk, rfl⟩ := List.mem_map.1 hl
    split
    · exact fun hmem => newline_not_mem_lines hk (List.mem_of_mem_drop hmem)
    · exact newline_not_mem_lines hk

namespace Framed

variable {ls head rest tail : List Text} {chunk margin first : Text}

theorem filled_first (h : Framed ls head first rest tail) : filled first = true :=
  filled_iff.2 h.first_filled

theorem filter_eq (h : Framed ls head first rest tail) :
    ls.filter filled = first :: rest.filter filled := by
  rw [h.lines_eq, List.filter_append, filter_filled_of_blank h.head_blank, List.nil_append,
    List.filter_cons_of_pos h.filled_first, List.filter_append, filter_filled_of_blank h.tail_blank,
    List.append_nil]

theorem margin_first (h : Framed ls head first rest tail) (hmargin : OnMargin margin ls) :
    margin <+: indentation first := hmargin first h.mem_first h.filled_first

/-- Blank lines and filled lines stay what they are when the margin is taken away. -/
theorem moved_left (h : Framed ls head first rest tail) (hmargin : OnMargin margin ls) :
    Framed (dedentBy margin ls) head (first.drop margin.length) (dedentBy margin rest) tail := by
  have hfirst := blank_drop (h.margin_first hmargin)
  refine ⟨?_, h.head_blank, hfirst.trans h.first_filled, ?_, h.tail_blank⟩
  · rw [h.lines_eq, dedentBy_append, dedentBy_of_blank margin h.head_blank,
      dedentBy_cons_of_filled _ h.filled_first, dedentBy_append,
      dedentBy_of_blank margin h.tail_blank]
  · intro l hl
    rw [dedentBy, List.getLast?_map, Option.mem_def, Option.map_eq_some_iff] at hl
    obtain ⟨k, hk, rfl⟩ := hl
    have hblank : blank k = false := h.last_filled k hk
    have hmem : k ∈ ls := h.mem_rest (List.mem_of_getLast? hk)
    rw [if_pos (filled_iff.2 hblank)]
    exact (blank_drop (hmargin k hmem (filled_iff.2 hblank))).trans hblank

/-- Without the margin and the blanks around it, a chunk of more than one filled line has lost the
indentation of the first line, and the margin of the others. -/
theorem lines_withoutMargin (h : Framed (lines chunk) head first rest tail) (hrest : rest ≠ [])
    (hmargin : OnMargin margin (lines chunk)) (hend : ∀ l ∈ rest.getLast?, trimRight l = l) :
    lines (withoutMargin margin chunk) = trimLeft first :: dedentBy margin rest := by
  obtain ⟨mid, last, rfl⟩ := (List.eq_nil_or_concat' rest).resolve_left hrest
  have hlast : blank last = false := h.last_filled last (by simp)
  have hfilled : filled last = true := filled_iff.2 hlast
  have honlast : margin <+: indentation last := hmargin last (h.mem_rest (by simp)) hfilled
  have honfirst : margin <+: indentation first := h.margin_first hmargin
  have hbelow : dedentBy margin (mid ++ [last]) =
      dedentBy margin mid ++ [last.drop margin.length] := by
    rw [dedentBy_append, dedentBy_cons_of_filled [] hfilled]
    rfl
  have hframed := h.moved_left hmargin
  rw [hbelow, ← lines_unlines_dedentBy] at hframed
  have htop : trimLeft (first.drop margin.length) = trimLeft first := by
    rw [← trimLeft_blank_append (first.drop margin.length) (blank_margin honfirst),
      drop_of_margin honfirst]
  have hbottom : trimRight (last.drop margin.length) = last.drop margin.length := by
    have hsame : margin ++ trimRight (last.drop margin.length) =
        margin ++ last.drop margin.length := by
      rw [← trimRight_append_of_not_blank margin ((blank_drop honlast).trans hlast),
        drop_of_margin honlast]
      exact hend last (by simp)
    exact List.append_cancel_left hsame
  rw [withoutMargin, hframed.lines_trim_concat, htop, hbottom, hbelow]

end Framed

theorem dedented_dedentBy {rest : List Text} {margin : Text} (hmargin : OnMargin margin rest)
    (hne : margin ≠ []) (hrest : rest.filter filled ≠ []) :
    dedented rest (dedentBy margin rest) = true := by
  have hleast : leastIndent (rest.filter filled) =
      margin.length + leastIndent ((rest.filter filled).map (·.drop margin.length)) := by
    refine leastIndent_drop hrest fun l hl => ?_
    exact hmargin l (List.mem_of_mem_filter hl) (List.of_mem_filter hl)
  have hpos : 0 < margin.length := List.length_pos_iff.2 hne
  have hafter : (rest.filter filled).map (·.drop margin.length) ≠ [] := by simpa using hrest
  simp only [dedented, hmargin.filter_dedentBy, Bool.and_eq_true, Bool.not_eq_true',
    List.isEmpty_eq_false_iff, decide_eq_true_eq]
  exact ⟨⟨hrest, hafter⟩, by omega⟩

/-- A chunk whose margin was taken away comes back with the indentation of its first line in the
place of the margin of the other lines. -/
theorem Framed.lines_reseat_withoutMargin {chunk margin first : Text} {head rest tail : List Text}
    (h : Framed (lines chunk) head first rest tail) (hrest : rest ≠ [])
    (hmargin : OnMargin margin (lines chunk)) (hne : margin ≠ [])
    (hend : ∀ l ∈ rest.getLast?, trimRight l = l) :
    lines (reseat chunk (withoutMargin margin chunk)) =
      head ++ first :: (indentBy (indentation first) (dedentBy margin rest) ++ tail) := by
  have hindent : (indentation first).isEmpty = false := by
    obtain ⟨u, hu⟩ := h.margin_first hmargin
    rw [List.isEmpty_eq_false_iff, ← hu]
    exact List.append_ne_nil_of_left_ne_nil hne u
  have hfilled : rest.filter filled ≠ [] := by
    obtain ⟨mid, last, rfl⟩ := (List.eq_nil_or_concat' rest).resolve_left hrest
    have hlast : blank last = false := h.last_filled last (by simp)
    exact List.ne_nil_of_mem (List.mem_filter.2 ⟨by simp, filled_iff.2 hlast⟩)
  have hmoved : dedented rest (dedentBy margin rest) = true :=
    dedented_dedentBy (fun l hl => hmargin l (h.mem_rest hl)) hne hfilled
  have htrim : trim (withoutMargin margin chunk) = withoutMargin margin chunk := trim_trim _
  rw [h.lines_reseat_of_trim htrim (h.lines_withoutMargin hrest hmargin hend),
    indentation_append_trimLeft, seatedBelow, hindent, hmoved]
  rfl

/-- A text of several filled lines has a first and a last one. -/
theorem exists_framed_of_filled {t first : Text} {others : List Text}
    (hfilled : (lines t).filter filled = first :: others) (hothers : others ≠ []) :
    ∃ head mid last tail, Framed (lines t) head first (mid ++ [last]) tail ∧
      others = mid.filter filled ++ [last] := by
  have hblank : blank t = false := by
    have hfirst : first ∈ (lines t).filter filled := hfilled ▸ List.mem_cons_self
    rw [Bool.eq_false_iff]
    intro hblank
    rw [← unlines_lines t, blank_unlines, List.all_eq_true] at hblank
    have htop : blank first = false := filled_iff.1 (List.of_mem_filter hfirst)
    rw [hblank first (List.mem_of_mem_filter hfirst)] at htop
    cases htop
  obtain ⟨head, top, rest, tail, h⟩ := exists_framed hblank
  obtain ⟨rfl, rfl⟩ : top = first ∧ rest.filter filled = others := by
    rw [h.filter_eq] at hfilled
    exact List.cons.inj hfilled
  obtain ⟨mid, last, rfl⟩ : ∃ mid last, rest = mid ++ [last] := by
    refine (List.eq_nil_or_concat' rest).resolve_left ?_
    rintro rfl
    exact hothers rfl
  have hlast : filled last = true := filled_iff.2 (h.last_filled last (by simp))
  refine ⟨head, mid, last, tail, h, ?_⟩
  rw [List.filter_append, List.filter_cons_of_pos hlast, List.filter_nil]

/-- **When seating undoes the loss of a margin.** A chunk of several filled lines that stand on a
common margin, the widest or a narrower one, taken without this margin and without the blanks around
it, is put back as it was exactly where its first filled line is indented by the margin and no
more. -/
theorem reseat_withoutMargin_iff {chunk margin first : Text} {others : List Text}
    (hfilled : (lines chunk).filter filled = first :: others) (hothers : others ≠ [])
    (hne : margin ≠ []) (hmargin : ∀ l ∈ first :: others, margin <+: indentation l)
    (hend : ∀ l ∈ others.getLast?, trimRight l = l) :
    reseat chunk (withoutMargin margin chunk) = chunk ↔ indentation first = margin := by
  have hall : OnMargin margin (lines chunk) := by
    intro l hl hfill
    exact hmargin l (hfilled ▸ List.mem_filter.2 ⟨hl, hfill⟩)
  obtain ⟨head, mid, last, tail, h, rfl⟩ := exists_framed_of_filled hfilled hothers
  rw [List.getLast?_concat] at hend
  have hbelow : OnMargin margin (mid ++ [last]) := fun l hl => hall l (h.mem_rest hl)
  have hlast : filled last = true := filled_iff.2 (h.last_filled last (by simp))
  have hseated := h.lines_reseat_withoutMargin (by simp) hall hne (by rwa [List.getLast?_concat])
  constructor
  · -- The last line tells the two shifts apart: it lost the margin and got the indentation.
    intro hback
    rw [hback, h.lines_eq] at hseated
    have hlines := (List.cons.inj (List.append_cancel_left hseated)).2
    have hmoved := List.append_cancel_right hlines
    rw [hbelow.indentBy_dedentBy, List.map_append, List.map_singleton, if_pos hlast] at hmoved
    have hbottom : last = indentation first ++ last.drop margin.length :=
      List.singleton_injective (List.append_inj_right' hmoved rfl)
    have honlast := drop_of_margin (hbelow last (by simp) hlast)
    exact List.append_cancel_right (hbottom.symm.trans honlast.symm)
  · intro hindent
    refine eq_of_lines_eq ?_
    rw [hseated, hindent, hbelow.indentBy_margin, ← h.lines_eq]

/-- A method whose body is indented further, with an empty line in it and another one behind it. -/
theorem reseat_withoutMargin_of_method :
    let chunk : Text := "\n  def f():\n\n    return 1\n".toList
    let margin : Text := "  ".toList
    let others : List Text := ["    return 1".toList]
    (lines chunk).filter filled = "  def f():".toList :: others ∧ others ≠ [] ∧ margin ≠ [] ∧
      (∀ l ∈ "  def f():".toList :: others, margin <+: indentation l) ∧
      (∀ l ∈ others.getLast?, trimRight l = l) ∧
      withoutMargin margin chunk = "def f():\n\n  return 1".toList ∧
      reseat chunk (withoutMargin margin chunk) = chunk := by
  intro chunk margin others
  have hfilled : (lines chunk).filter filled = "  def f():".toList :: others := by decide
  have hmargin : ∀ l ∈ "  def f():".toList :: others, margin <+: indentation l := by decide
  have hend : ∀ l ∈ others.getLast?, trimRight l = l := by decide
  exact ⟨hfilled, by decide, by decide, hmargin, hend, by decide,
    (reseat_withoutMargin_iff hfilled (by decide) (by decide) hmargin hend).2 (by decide)⟩

/-- Behind the last line of a body, the method that follows becomes a part of it. -/
theorem reseat_withoutMargin_of_deeper_line :
    let chunk : Text := "    return 1\n  def g():\n    return 2".toList
    let margin : Text := "  ".toList
    (∀ l ∈ lines chunk, margin <+: indentation l) ∧ indentation "  def g():".toList = margin ∧
      withoutMargin margin chunk = "return 1\ndef g():\n  return 2".toList ∧
      reseat chunk (withoutMargin margin chunk) =
        "    return 1\n    def g():\n      return 2".toList ∧
      reseat chunk (withoutMargin margin chunk) ≠ chunk := by
  decide

end Refinery.Chunk
