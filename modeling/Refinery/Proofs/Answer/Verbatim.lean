import Refinery.Proofs.Answer.Cutoff
import Refinery.Proofs.Answer.Prose

/-!
Extraction invents nothing. What is extracted from a raw text is a piece of it, unless the text has
no opening line of a block and is no inline span. Then it is the lines that are neither blank nor
prose, as they stand and in order; no line that does not begin with a capital is lost, so that no
comment is.
-/

namespace Refinery.Extract

open Text Computability

variable {raw t u b c : Text} {before : Option Char}

/-- The opening line of a block. -/
def opener : CharLanguage :=
  {fence} * every isTag * every (fun c => isBlank c && c != '\n') * {['\n']}

/-- An inline span and any blanks behind it. -/
def span : CharLanguage := {['\x60']} * run (· != '\x60') * {['\x60']} * every isBlank

/-- A text with no opening line of a block anywhere that is no inline span either. -/
structure Unmarked (t : Text) : Prop where
  unopened : ∀ line ∈ opener, ¬ line <:+: t
  unspanned : t ∉ span

theorem mem_opener : t ∈ opener ↔ ∃ tag gap, tag.all isTag = true ∧
    gap.all (fun c => isBlank c && c != '\n') = true ∧ t = fence ++ tag ++ gap ++ ['\n'] := by
  constructor
  · rintro ⟨a, ⟨d, ⟨f, rfl, tag, htag, rfl⟩, gap, hgap, rfl⟩, e, rfl, rfl⟩
    exact ⟨tag, gap, htag, hgap, rfl⟩
  · rintro ⟨tag, gap, htag, hgap, rfl⟩
    exact Language.append_mem_mul (Language.append_mem_mul
      (Language.append_mem_mul rfl htag) hgap) rfl

theorem mem_span : t ∈ span ↔ ∃ body rest, body ∈ run (· != '\x60') ∧ blank rest = true ∧
    t = '\x60' :: (body ++ '\x60' :: rest) := by
  constructor
  · rintro ⟨a, ⟨d, ⟨f, rfl, body, hbody, rfl⟩, g, rfl, rfl⟩, rest, hrest, rfl⟩
    exact ⟨body, rest, hbody, hrest, by simp⟩
  · rintro ⟨body, rest, hbody, hrest, rfl⟩
    have hparts : '\x60' :: (body ++ '\x60' :: rest) = ['\x60'] ++ body ++ ['\x60'] ++ rest := by simp
    rw [hparts]
    exact Language.append_mem_mul (Language.append_mem_mul
      (Language.append_mem_mul rfl hbody) rfl) hrest

/-- A block is opened by an opening line. -/
theorem opening?_eq_some_iff_opener :
    opening? t = some b ↔ ∃ line ∈ opener, t = line ++ b := by
  rw [opening?_eq_some_iff]
  constructor
  · rintro ⟨tag, hline, hblank, rfl⟩
    refine ⟨fence ++ tag.takeWhile isTag ++ tag.dropWhile isTag ++ ['\n'],
      mem_opener.2 ⟨_, _, List.all_takeWhile, ?_, rfl⟩, ?_⟩
    · refine List.all_eq_true.2 fun c hc => ?_
      have hne : c ≠ '\n' := fun e => hline (e ▸ (List.dropWhile_suffix isTag).subset hc)
      rw [isBlank_of_mem hblank c hc, Bool.true_and, bne_iff_ne]
      exact hne
    · simp only [List.append_assoc, List.singleton_append]
      rw [← List.append_assoc (tag.takeWhile isTag), List.takeWhile_append_dropWhile]
  · rintro ⟨line, hline, rfl⟩
    obtain ⟨tag, gap, htag, hgap, rfl⟩ := mem_opener.1 hline
    have hgap' : ∀ c ∈ gap, isBlank c = true ∧ c ≠ '\n' := by
      intro c hc
      have h := List.all_eq_true.1 hgap c hc
      rwa [Bool.and_eq_true, bne_iff_ne] at h
    refine ⟨tag ++ gap, ?_, ?_, by simp⟩
    · intro hmem
      rcases List.mem_append.1 hmem with h | h
      · exact absurd (List.all_eq_true.1 htag _ h) (by decide)
      · exact (hgap' _ h).2 rfl
    · rw [List.dropWhile_append_of_pos (List.all_eq_true.1 htag)]
      exact List.all_eq_true.2 fun c hc => (hgap' c ((List.dropWhile_suffix isTag).subset hc)).1

/-- Where there is no mark, nothing is opened and nothing is a span. -/
theorem unmarked_of_not_mem (h : '\x60' ∉ t) : Unmarked t := by
  constructor
  · intro line hline hpiece
    obtain ⟨tag, gap, -, -, rfl⟩ := mem_opener.1 hline
    exact h (hpiece.subset (by simp [fence]))
  · intro hspan
    obtain ⟨body, rest, -, -, rfl⟩ := mem_span.1 hspan
    exact h List.mem_cons_self

theorem suffix_of_opening? (h : opening? t = some b) : b <:+ t := by
  obtain ⟨line, -, rfl⟩ := opening?_eq_some_iff_opener.1 h
  exact List.suffix_append line b

theorem infix_of_closedBlock (h : closedBlock before t = some b) : b <:+: t := by
  obtain ⟨u, hu, h⟩ := Option.bind_eq_some_iff.1 h
  obtain ⟨⟨body, rest⟩, hcut, hb⟩ := Option.bind_eq_some_iff.1 h
  obtain rfl := Option.some.inj hb
  have hbody : body <+: u := ⟨fence ++ rest, (eq_of_cut? hcut).symm⟩
  exact hbody.isInfix.trans (suffix_of_opening? hu).isInfix

theorem guard_eq_some_iff {p : Prop} [Decidable p] {x y : Text} :
    (do guard p; return x : Option Text) = some y ↔ p ∧ x = y := by
  by_cases hp : p <;> simp [guard, hp]

theorem openBlock_eq_some_iff : openBlock before t = some b ↔ opening? t = some b ∧ b ≠ [] := by
  rw [openBlock, Option.bind_eq_bind, Option.bind_eq_some_iff]
  simp only [guard_eq_some_iff, Bool.not_eq_true', List.isEmpty_eq_false_iff]
  constructor
  · rintro ⟨body, hbody, hne, rfl⟩
    exact ⟨hbody, hne⟩
  · rintro ⟨hbody, hne⟩
    exact ⟨b, hbody, hne, rfl⟩

theorem char?_eq_some_iff {d : Char} : char? d t = some u ↔ t = d :: u := by
  cases t with
  | nil => simp [char?]
  | cons e t => by_cases he : e = d <;> simp [char?, he]

theorem inlineSpan?_eq_some_iff : inlineSpan? t = some b ↔
    ∃ rest, b ∈ run (· != '\x60') ∧ blank rest = true ∧ t = '\x60' :: (b ++ '\x60' :: rest) := by
  have hrun : b ∈ run (· != '\x60') ↔ b ≠ [] ∧ '\x60' ∉ b := by
    rw [mem_run, List.all_eq_true]
    refine and_congr_right' ⟨fun h hmem => ?_, fun h c hc => ?_⟩
    · exact absurd (h _ hmem) (by decide)
    · exact bne_iff_ne.2 fun e => h (e ▸ hc)
  rw [hrun]
  constructor
  · intro h
    obtain ⟨u, hu, h⟩ := Option.bind_eq_some_iff.1 h
    obtain ⟨⟨body, rest⟩, hcut, h⟩ := Option.bind_eq_some_iff.1 h
    obtain ⟨hguard, rfl⟩ := guard_eq_some_iff.1 h
    obtain rfl := char?_eq_some_iff.1 hu
    obtain ⟨hbody, rfl⟩ := upTo?_eq_some_iff.1 hcut
    rw [Bool.and_eq_true, Bool.not_eq_true', List.isEmpty_eq_false_iff] at hguard
    exact ⟨rest, ⟨hguard.1, hbody⟩, hguard.2, rfl⟩
  · rintro ⟨rest, ⟨hne, hbody⟩, hrest, rfl⟩
    have hmark : char? '\x60' ('\x60' :: (b ++ '\x60' :: rest)) = some (b ++ '\x60' :: rest) :=
      char?_eq_some_iff.2 rfl
    rw [inlineSpan?, hmark, Option.bind_eq_bind, Option.bind_some, upTo?_append_cons hbody rest]
    refine guard_eq_some_iff.2 ⟨?_, rfl⟩
    rw [hrest, List.isEmpty_eq_false_iff.2 hne]
    rfl

theorem isSome_inlineSpan?_iff : (inlineSpan? t).isSome = true ↔ t ∈ span := by
  rw [Option.isSome_iff_exists, mem_span]
  exact exists_congr fun b => inlineSpan?_eq_some_iff

theorem suffix_of_afterOpening? (h : afterOpening? t = some u) : u <:+ t := by
  unfold afterOpening? at h
  obtain ⟨⟨first, second⟩, -, h⟩ := List.exists_of_findSome?_eq_some h
  obtain ⟨rest, -, h⟩ := Option.bind_eq_some_iff.1 h
  cases second with
  | none =>
      obtain rfl := Option.some.inj h
      exact List.drop_suffix _ t
  | some word =>
      obtain ⟨after, -, h⟩ := Option.bind_eq_some_iff.1 h
      obtain rfl := Option.some.inj h
      exact List.drop_suffix _ t

theorem suffix_of_afterAnnouncement? (h : afterAnnouncement? t = some u) : u <:+ t := by
  obtain ⟨rest, hrest, h⟩ := Option.bind_eq_some_iff.1 h
  obtain ⟨⟨line, rest'⟩, hline, h⟩ := Option.bind_eq_some_iff.1 h
  obtain ⟨-, -, h⟩ := Option.bind_eq_some_iff.1 h
  obtain rfl := Option.some.inj h
  obtain ⟨-, rfl⟩ := upTo?_eq_some_iff.1 hline
  exact ((List.suffix_cons _ _).trans (List.suffix_append line _)).trans
    (suffix_of_afterOpening? hrest)

theorem isInfix_withoutAnnouncement (t : Text) : withoutAnnouncement t <:+: t := by
  refine (isInfix_trim _).trans ?_
  cases h : afterAnnouncement? t with
  | none => exact List.infix_rfl
  | some u => exact (suffix_of_afterAnnouncement? h).isInfix

theorem present?_eq_some_iff : present? t = some c ↔ blank t = false ∧ c = trim t := by
  cases ht : blank t with
  | true =>
      rw [present?_of_blank ht]
      exact iff_of_false (Option.some_ne_none c).symm fun h => Bool.noConfusion h.1
  | false =>
      rw [present?_of_not_blank ht, Option.some.injEq]
      exact ⟨fun h => ⟨rfl, h.symm⟩, fun h => h.2.symm⟩

/-- The lines that are neither blank nor prose. -/
def keptLines (t : Text) : List Text := (lines t).filter fun l => ¬ blank l ∧ ¬ IsProse l

theorem codeLines_eq (t : Text) : codeLines t = unlines (keptLines t) := by
  have hkept : ∀ l, (!blank l && !looksLikeProse l) = decide (¬ blank l ∧ ¬ IsProse l) := by
    intro l
    rw [Bool.eq_iff_iff, decide_eq_true_iff, ← looksLikeProse_iff]
    simp
  rw [codeLines, keptLines]
  simp only [hkept]

theorem mem_keptLines {l : Text} : l ∈ keptLines t ↔ l ∈ lines t ∧ blank l = false ∧ ¬ IsProse l := by
  simp [keptLines]

/-- The text whose blocks, span or lines are extracted. -/
def prepared (raw : Text) : Text := withoutAnnouncement (trim raw)

theorem isInfix_prepared (raw : Text) : prepared raw <:+: raw :=
  (isInfix_withoutAnnouncement (trim raw)).trans (isInfix_trim raw)

theorem trim_prepared (raw : Text) : trim (prepared raw) = prepared raw := trim_trim _

theorem prepared_of_blank (h : blank raw = true) : prepared raw = [] := by
  have hpiece : prepared raw <:+: trim raw := isInfix_withoutAnnouncement (trim raw)
  rw [trim_eq_nil_iff.2 h] at hpiece
  exact List.infix_nil.1 hpiece

theorem Unmarked.opening?_eq_none (h : Unmarked t) (hu : u <:+ t) : opening? u = none := by
  rw [Option.eq_none_iff_forall_not_mem]
  intro b hb
  obtain ⟨line, hline, rfl⟩ := opening?_eq_some_iff_opener.1 hb
  exact h.unopened line hline ((List.prefix_append line b).isInfix.trans hu.isInfix)

theorem code?_of_unmarked (h : Unmarked (prepared raw)) :
    code? raw = present? (unlines (keptLines (prepared raw))) := by
  have hclosed : findValue closedBlock (prepared raw) = none :=
    findValue_eq_none fun u _ hu => by
      rw [closedBlock, h.opening?_eq_none hu]
      rfl
  have hopen : findValue openBlock (prepared raw) = none := findValue_eq_none fun u _ hu => by
    rw [openBlock, h.opening?_eq_none hu]
    rfl
  have hspan : inlineSpan? (prepared raw) = none :=
    Option.not_isSome_iff_eq_none.1 (mt isSome_inlineSpan?_iff.1 h.unspanned)
  rw [← codeLines_eq, code?]
  cases hblank : blank raw with
  | true =>
      rw [prepared_of_blank hblank]
      rfl
  | false =>
      rw [prepared] at hclosed hopen hspan
      simp only [Bool.false_eq_true, if_false, hclosed, hopen, hspan, Option.bind_none]
      rfl

/-- Nothing is marked where no place opens a block with a body and the text is no span. A trimmed
text does not end with an opening line, so one has a body behind it. -/
theorem unmarked_of_eq_none (ht : trim t = t)
    (hopen : ∀ u, u <:+ t → ∃ before, openBlock before u = none) (hspan : inlineSpan? t = none) :
    Unmarked t := by
  refine ⟨fun line hline hpiece => ?_, fun h => ?_⟩
  · obtain ⟨x, y, hxy⟩ := hpiece
    have hsuffix : line ++ y <:+ t := ⟨x, by rw [← List.append_assoc, hxy]⟩
    have hopening : opening? (line ++ y) = some y := opening?_eq_some_iff_opener.2 ⟨line, hline, rfl⟩
    have hne : y ≠ [] := by
      rintro rfl
      obtain ⟨tag, gap, -, -, rfl⟩ := mem_opener.1 hline
      rw [List.append_nil] at hsuffix
      have hend : ['\n'] <:+ t := (List.suffix_append _ _).trans hsuffix
      exact absurd (not_blank_of_suffix ht hend (List.cons_ne_nil _ _)) (by decide)
    obtain ⟨before, hnone⟩ := hopen _ hsuffix
    rw [openBlock_eq_some_iff.2 ⟨hopening, hne⟩] at hnone
    cases hnone
  · rw [← isSome_inlineSpan?_iff, hspan] at h
    cases h

/-- **Where code comes from.** It is the trimmed form of a piece of the prepared text, or, where
nothing is marked, of the lines that are kept. -/
theorem exists_candidate (h : code? raw = some c) : ∃ b, present? b = some c ∧
    (b <:+: prepared raw ∨ Unmarked (prepared raw) ∧ b = unlines (keptLines (prepared raw))) := by
  cases hblank : blank raw with
  | true =>
      rw [code?, hblank] at h
      cases h
  | false =>
      rw [code?, hblank, if_neg Bool.false_ne_true, ← prepared] at h
      rcases findValue_cases closedBlock (prepared raw) with
        ⟨b, u, before, hb, hu, hbody⟩ | ⟨hclosed, -⟩
      · simp only [hb] at h
        exact ⟨b, h, Or.inl ((infix_of_closedBlock hbody).trans hu.isInfix)⟩
      simp only [hclosed] at h
      rcases findValue_cases openBlock (prepared raw) with
        ⟨b, u, before, hb, hu, hbody⟩ | ⟨hopen, hunopened⟩
      · obtain ⟨hopening, hne⟩ := openBlock_eq_some_iff.1 hbody
        have hsuffix : b <:+ prepared raw := (suffix_of_opening? hopening).trans hu
        have hpresent : present? b = some (trim b) :=
          present?_of_not_blank (not_blank_of_suffix (trim_prepared raw) hsuffix hne)
        simp only [hb, Option.bind_some, hpresent] at h
        exact ⟨b, hpresent.trans h, Or.inl hsuffix.isInfix⟩
      simp only [hopen, Option.bind_none] at h
      cases hspan : inlineSpan? (prepared raw) with
      | some b =>
          simp only [hspan] at h
          obtain ⟨rest, -, -, heq⟩ := inlineSpan?_eq_some_iff.1 hspan
          refine ⟨b, h, Or.inl ?_⟩
          rw [heq]
          exact List.infix_cons (List.prefix_append b _).isInfix
      | none =>
          simp only [hspan, codeLines_eq] at h
          exact ⟨_, h, Or.inr ⟨unmarked_of_eq_none (trim_prepared raw) hunopened hspan, rfl⟩⟩

/-- A line whose first character that is not blank is no capital. -/
def isUncapitalised (l : Text) : Bool := (trimLeft l).head?.any (!·.isUpper)

theorem kept_of_isUncapitalised {l : Text} (h : isUncapitalised l = true) :
    blank l = false ∧ ¬ IsProse l := by
  constructor
  · rw [Bool.eq_false_iff]
    intro hblank
    rw [isUncapitalised, trimLeft_eq_nil_iff.2 hblank] at h
    cases h
  · intro hprose
    obtain ⟨c, u, hu, hc⟩ := exists_capital_of_isProse hprose
    rw [isUncapitalised, hu, List.head?_cons, Option.any_some, hc] at h
    cases h

theorem blank_unlines_keptLines (t : Text) :
    blank (unlines (keptLines t)) = true ↔ keptLines t = [] := by
  rw [blank_unlines, List.all_eq_true, List.eq_nil_iff_forall_not_mem]
  refine forall_congr' fun l => ⟨fun h hl => ?_, fun h hl => absurd hl h⟩
  have hblank := h hl
  rw [(mem_keptLines.1 hl).2.1] at hblank
  cases hblank

theorem present?_keptLines (t : Text) : present? (unlines (keptLines t)) =
    if keptLines t = [] then none else some (trim (unlines (keptLines t))) := by
  split
  · next hnil => exact present?_of_blank ((blank_unlines_keptLines t).2 hnil)
  · next hne =>
      refine present?_of_not_blank ?_
      rwa [Bool.eq_false_iff, Ne, blank_unlines_keptLines]

/-- What the lines of a comment begin with. -/
def commentMarks : List Text := ["//", "#", "*", "/*"].map String.toList

/-- A line that begins with the mark of a comment does not begin with a capital. -/
theorem isUncapitalised_of_comment {l mark : Text} (hmark : mark ∈ commentMarks)
    (h : mark <+: trimLeft l) : isUncapitalised l = true := by
  have hhead : ∀ m ∈ commentMarks, m.head?.any (!·.isUpper) = true := by decide
  obtain ⟨u, hu⟩ := h
  have hfirst := hhead mark hmark
  cases mark with
  | nil => cases hfirst
  | cons c mark =>
      rw [isUncapitalised, ← hu]
      exact hfirst

/-- **Extraction invents nothing and keeps comments.** What is extracted is not blank, has no blanks
around it and is a piece of the raw text, or else, where nothing is marked, it is what the kept lines
come to. These are all in it, and every line that does not begin with a capital is one of them, so
every comment is. -/
theorem code?_verbatim (raw : Text) :
    (∀ c, code? raw = some c → blank c = false ∧ trim c = c ∧
      (c <:+: raw ∨ Unmarked (prepared raw) ∧ c = trim (unlines (keptLines (prepared raw))))) ∧
    (Unmarked (prepared raw) →
      (code? raw = if keptLines (prepared raw) = [] then none
        else some (trim (unlines (keptLines (prepared raw))))) ∧
      (∀ l ∈ keptLines (prepared raw), ∃ c, code? raw = some c ∧ trim l <:+: c) ∧
      ((lines (prepared raw)).filter isUncapitalised).Sublist (keptLines (prepared raw)) ∧
      ∀ mark ∈ commentMarks, ∀ l ∈ lines (prepared raw), mark <+: trimLeft l →
        l ∈ keptLines (prepared raw)) := by
  have hlast : Unmarked (prepared raw) → code? raw = if keptLines (prepared raw) = [] then none
      else some (trim (unlines (keptLines (prepared raw)))) := by
    intro h
    rw [code?_of_unmarked h, present?_keptLines]
  refine ⟨fun c hc => ?_, fun h => ⟨hlast h, fun l hl => ?_, ?_, ?_⟩⟩
  · obtain ⟨b, hb, hplace⟩ := exists_candidate hc
    obtain ⟨hblank, rfl⟩ := present?_eq_some_iff.1 hb
    refine ⟨?_, trim_trim b, hplace.imp (fun hpiece => ?_) fun ⟨h, heq⟩ => ⟨h, by rw [heq]⟩⟩
    · rw [Bool.eq_false_iff] at hblank ⊢
      rwa [Ne, ← trim_eq_nil_iff, trim_trim, trim_eq_nil_iff]
    · exact (isInfix_trim b).trans (hpiece.trans (isInfix_prepared raw))
  · refine ⟨trim (unlines (keptLines (prepared raw))), ?_, trim_infix_trim (infix_unlines hl)⟩
    rw [hlast h, if_neg (List.ne_nil_of_mem hl)]
  · refine List.monotone_filter_right _ fun l hl => ?_
    exact decide_eq_true (by simpa using kept_of_isUncapitalised hl)
  · intro mark hmark l hl hcomment
    exact mem_keptLines.2 ⟨hl, kept_of_isUncapitalised (isUncapitalised_of_comment hmark hcomment)⟩

/-- An announcement, a line of prose in front of the code and a comment that reads like prose. -/
theorem code?_verbatim_of_comment :
    let raw : Text := "Here is the code:\nThis makes it faster.\n  x = [1];\n\n  # Keep it here.\n".toList
    let code : Text := "x = [1];\n  # Keep it here.".toList
    Unmarked (prepared raw) ∧ code? raw = some code ∧ blank code = false ∧ trim code = code ∧
      "  # Keep it here.".toList ∈ keptLines (prepared raw) := by
  intro raw code
  have hmark : '\x60' ∉ prepared raw := by decide
  have hunmarked : Unmarked (prepared raw) := unmarked_of_not_mem hmark
  obtain ⟨hlast, -, -, hcomments⟩ := (code?_verbatim raw).2 hunmarked
  have hcode : code? raw = some code := hlast.trans (by decide)
  obtain ⟨hblank, htrim, -⟩ := (code?_verbatim raw).1 code hcode
  exact ⟨hunmarked, hcode, hblank, htrim,
    hcomments "#".toList (by decide) _ (by decide) (by decide)⟩

end Refinery.Extract
