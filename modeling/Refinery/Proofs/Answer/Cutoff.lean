import Refinery.Proofs.Answer.Fenced
import Refinery.Proofs.Answer.Prose

/-!
Blocks that are cut off. What is extracted from the front of a fenced block, when its opening line is
whole, is the front of its code, unless there is no code in it yet or the cut is in the fence behind
the code.
-/

namespace Refinery.Extract

open Text

variable {tag code body t u b : Text}

/-- Only blanks may stand between the tag of an opening line and its end. -/
theorem opening?_fence_append (hline : '\n' ∉ tag) (body : Text) :
    opening? (fence ++ (tag ++ '\n' :: body)) =
      if blank (tag.dropWhile isTag) then some body else none := by
  have hnewline : ¬ isTag '\n' = true := by decide
  have hdrop : (tag ++ '\n' :: body).dropWhile isTag = tag.dropWhile isTag ++ '\n' :: body := by
    rw [List.dropWhile_append]
    split
    · next hempty =>
      rw [List.isEmpty_iff.1 hempty, List.dropWhile_cons_of_neg hnewline, List.nil_append]
    · rfl
  have hrest : '\n' ∉ tag.dropWhile isTag := fun hmem =>
    hline ((List.dropWhile_suffix isTag).subset hmem)
  rw [opening?, after?_append]
  simp only [Option.bind_eq_bind, Option.bind_some, hdrop]
  generalize tag.dropWhile isTag = rest at hrest
  induction rest with
  | nil => rw [List.nil_append, List.dropWhile_cons_of_neg (by decide)]; rfl
  | cons c rest ih =>
      have hc : c ≠ '\n' := fun e => hrest (e ▸ List.mem_cons_self)
      rw [List.cons_append, blank_cons]
      cases hblank : isBlank c with
      | true =>
          rw [List.dropWhile_cons_of_pos (by simp [hblank, hc]), Bool.true_and]
          exact ih fun hmem => hrest (List.mem_cons_of_mem c hmem)
      | false =>
          rw [List.dropWhile_cons_of_neg (by simp [hblank]), Bool.false_and,
            if_neg Bool.false_ne_true, char?, if_neg (by simpa using hc)]

/-- **What opens a block.** A fence, a tag with at most blanks behind it, and the end of the line. -/
theorem opening?_eq_some_iff : opening? t = some b ↔
    ∃ tag, '\n' ∉ tag ∧ blank (tag.dropWhile isTag) = true ∧ t = fence ++ (tag ++ '\n' :: b) := by
  constructor
  · intro h
    obtain ⟨rest, hrest, hline⟩ := Option.bind_eq_some_iff.1 h
    have hmem : '\n' ∈ rest := by
      refine (List.dropWhile_suffix isTag).subset ?_
      exact (List.dropWhile_suffix _).subset (mem_of_char? hline)
    obtain rfl := after?_eq_some_iff.1 hrest
    obtain ⟨tag, body, rfl, htag⟩ := List.eq_append_cons_of_mem hmem
    rw [opening?_fence_append htag] at h
    split at h
    · next hblank => exact ⟨tag, htag, hblank, by rw [Option.some.inj h]⟩
    · cases h
  · rintro ⟨tag, htag, hblank, rfl⟩
    rw [opening?_fence_append htag, if_pos hblank]

theorem opening?_of_newline_not_mem (h : '\n' ∉ t) : opening? t = none := by
  rw [Option.eq_none_iff_forall_not_mem]
  intro b hb
  obtain ⟨tag, -, -, rfl⟩ := opening?_eq_some_iff.1 hb
  exact h (by simp)

/-- A block that is open stays open when the text goes on. -/
theorem opening?_append (h : opening? t = some b) (s : Text) : opening? (t ++ s) = some (b ++ s) := by
  obtain ⟨tag, hline, hblank, rfl⟩ := opening?_eq_some_iff.1 h
  refine opening?_eq_some_iff.2 ⟨tag, hline, hblank, ?_⟩
  simp only [List.append_assoc, List.cons_append]

/-- A text with fewer marks than a fence has none. -/
theorem not_hasPart_fence (h : t.count '\x60' < 3) : hasPart fence t = false := by
  rw [Bool.eq_false_iff]
  intro hpart
  have hcount : fence.count '\x60' ≤ t.count '\x60' :=
    (hasPart_iff.1 hpart).sublist.count_le '\x60'
  have hfence : fence.count '\x60' = 3 := by decide
  omega

theorem not_hasPart_fence_of_not_mem (h : '\x60' ∉ t) : hasPart fence t = false :=
  not_hasPart_fence (List.count_eq_zero_of_not_mem h ▸ Nat.zero_lt_succ 2)

/-- No place behind the first mark of a block opens one. -/
theorem opening?_later (htag : '\x60' ∉ tag) (hcode : '\x60' ∉ code)
    (hu : u <:+ (Prompt.fenced tag code).tail) : opening? u = none := by
  have hparts : (Prompt.fenced tag code).tail =
      ("``".toList ++ tag ++ ['\n'] ++ code ++ ['\n']) ++ fence := by
    simp [Prompt.fenced, fence]
  rw [hparts] at hu
  rcases List.suffix_or_suffix_of_suffix hu (List.suffix_append _ fence) with hu' | ⟨w, rfl⟩
  · exact opening?_of_newline_not_mem fun hmem => newline_not_mem_fence (hu'.subset hmem)
  · obtain ⟨x, hx⟩ := hu
    rw [← List.append_assoc] at hx
    cases w with
    | nil => exact opening?_of_newline_not_mem newline_not_mem_fence
    | cons c p =>
        have hcount : (c :: p).count '\x60' < 3 := by
          have hwhole := congrArg (List.count '\x60') (List.append_cancel_right hx)
          simp only [List.count_append, List.count_eq_zero_of_not_mem htag,
            List.count_eq_zero_of_not_mem hcode] at hwhole
          have hmarks : List.count '\x60' "``".toList = 2 := by decide
          have hnewline : List.count '\x60' ['\n'] = 0 := by decide
          omega
        have hnone := opening?_append_fence (not_hasPart_fence hcount) []
        rwa [List.append_nil] at hnone

/-- Neither does one in the front of the block. -/
theorem opening?_later_of_cut {rest : Text} (htag : '\x60' ∉ tag) (hcode : '\x60' ∉ code)
    (hcut : '\x60' :: rest <+: Prompt.fenced tag code) (hu : u <:+ rest) : opening? u = none := by
  obtain ⟨s, hs⟩ := hcut
  have hwhole : u ++ s <:+ (Prompt.fenced tag code).tail := by
    obtain ⟨x, rfl⟩ := hu
    exact ⟨x, by rw [← hs, List.cons_append, List.tail_cons, List.append_assoc]⟩
  have hnone := opening?_later htag hcode hwhole
  rw [Option.eq_none_iff_forall_not_mem]
  intro b hb
  cases hnone.symm.trans (opening?_append hb s)

theorem withoutAnnouncement_mark (t : Text) :
    withoutAnnouncement ('\x60' :: t) = trim ('\x60' :: t) := rfl

/-- A line that begins with a mark is no prose, which begins with a capital. -/
theorem not_looksLikeProse_mark (t : Text) : looksLikeProse ('\x60' :: t) = false := by
  rw [Bool.eq_false_iff, Ne, looksLikeProse_iff]
  intro hprose
  obtain ⟨c, u, hfirst, hcapital⟩ := exists_capital_of_isProse hprose
  rw [trimLeft_cons_of_not_isBlank t (by decide)] at hfirst
  rw [← (List.cons.inj hfirst).1] at hcapital
  exact absurd hcapital (by decide)

/-- The first line of a text that begins with a mark stays. -/
theorem exists_codeLines_mark (t : Text) : ∃ u, codeLines ('\x60' :: t) = '\x60' :: u := by
  obtain ⟨l, ls, hl⟩ := exists_lines t
  have hlines : lines ('\x60' :: t) = ('\x60' :: l) :: ls := lines_cons (by decide) hl
  have hkept : (!blank ('\x60' :: l) && !looksLikeProse ('\x60' :: l)) = true := by
    rw [not_looksLikeProse_mark]
    rfl
  rw [codeLines, hlines, List.filter_cons, if_pos hkept]
  generalize ls.filter _ = more
  cases more with
  | nil => exact ⟨l, rfl⟩
  | cons m more =>
      rw [unlines_cons _ (List.cons_ne_nil m more)]
      exact ⟨_, List.cons_append⟩

theorem not_blank_of_fence (h : fence <+: Text.trim t) : blank t = false := by
  rw [Bool.eq_false_iff]
  intro hblank
  rw [trim_eq_nil_iff.2 hblank] at h
  exact absurd (List.prefix_nil.1 h) (by decide)

/-- A fence is no announcement. -/
theorem withoutAnnouncement_of_fence (h : fence <+: Text.trim t) :
    withoutAnnouncement (Text.trim t) = Text.trim t := by
  obtain ⟨rest, hrest⟩ := h
  have hmark : Text.trim t = '\x60' :: ("``".toList ++ rest) := hrest.symm
  rw [hmark, withoutAnnouncement_mark, ← hmark, trim_trim]

/-- A fence does not open an inline span. -/
theorem inlineSpan?_of_fence (h : fence <+: t) : inlineSpan? t = none := by
  obtain ⟨rest, rfl⟩ := h
  rfl

section Fence

variable (h : fence <+: Text.trim t)

include h

theorem code?_of_closedBlock (hclosed : findValue closedBlock (Text.trim t) = some body) :
    code? t = present? body := by
  rw [code?, not_blank_of_fence h]
  simp only [Bool.false_eq_true, if_false, withoutAnnouncement_of_fence h, hclosed]

theorem code?_of_openBlock (hclosed : findValue closedBlock (Text.trim t) = none)
    (hopen : findValue openBlock (Text.trim t) = some body) (hbody : present? body = some u) :
    code? t = some u := by
  rw [code?, not_blank_of_fence h]
  simp only [Bool.false_eq_true, if_false, withoutAnnouncement_of_fence h, hclosed, hopen,
    Option.bind_some, hbody]

/-- Where nothing opens a block, the marks in front are taken for code. -/
theorem exists_code?_of_unopened (hnone : ∀ u, u <:+ Text.trim t → opening? u = none) :
    ∃ u, code? t = some ('\x60' :: u) := by
  have hclosed : findValue closedBlock (Text.trim t) = none := findValue_eq_none fun u _ hu => by
    rw [closedBlock, hnone u hu]
    rfl
  have hopen : findValue openBlock (Text.trim t) = none := findValue_eq_none fun u _ hu => by
    rw [openBlock, hnone u hu]
    rfl
  have hlast : code? t = present? (codeLines (Text.trim t)) := by
    rw [code?, not_blank_of_fence h]
    simp only [Bool.false_eq_true, if_false, withoutAnnouncement_of_fence h, hclosed, hopen,
      Option.bind_none, inlineSpan?_of_fence h]
  obtain ⟨rest, hrest⟩ := h
  obtain ⟨u, hu⟩ := exists_codeLines_mark ("``".toList ++ rest)
  have hlines : codeLines (Text.trim t) = '\x60' :: u := by
    rw [← hrest]
    exact hu
  have htrim : Text.trim ('\x60' :: u) = '\x60' :: trimRight u :=
    trimRight_append_cons [] u (by decide)
  exact ⟨trimRight u, by rw [hlast, hlines, ← htrim]; exact present?_of_not_blank rfl⟩

end Fence

/-! ### The front of a block -/

/-- The front of a block up to a place behind its opening line. -/
def frontOf (tag body : Text) : Text := fence ++ (tag ++ '\n' :: body)

theorem frontOf_eq (tag body : Text) : frontOf tag body = (fence ++ tag ++ ['\n']) ++ body := by
  simp only [frontOf, List.append_assoc, List.singleton_append]

theorem trim_frontOf_of_filled (tag : Text) (h : blank body = false) :
    Text.trim (frontOf tag body) = frontOf tag (trimRight body) := by
  have hleft : trimLeft (frontOf tag body) = frontOf tag body :=
    trimLeft_cons_of_not_isBlank _ (by decide)
  rw [Text.trim, hleft, frontOf_eq, trimRight_append_of_not_blank _ h, frontOf_eq]

theorem trim_frontOf_of_blank (tag : Text) (h : blank body = true) :
    Text.trim (frontOf tag body) = fence ++ trimRight tag := by
  have hbehind : blank ('\n' :: body) = true := by
    rw [blank_cons, h]
    rfl
  have hparts : frontOf tag body = fence ++ tag ++ '\n' :: body :=
    (List.append_assoc fence tag ('\n' :: body)).symm
  have hleft : trimLeft (fence ++ tag) = fence ++ tag :=
    trimLeft_cons_of_not_isBlank _ (by decide)
  rw [hparts, trim_append_blank _ hbehind, Text.trim, hleft]
  exact trimRight_append_cons "``".toList tag (by decide)

theorem fenced_eq_frontOf (tag code : Text) :
    Prompt.fenced tag code = frontOf tag (code ++ '\n' :: fence) := fenced_eq tag code

theorem frontOf_prefix_iff : frontOf tag body <+: Prompt.fenced tag code ↔
    body <+: code ++ '\n' :: fence := by
  rw [fenced_eq_frontOf, frontOf_eq, frontOf_eq, List.prefix_append_right_inj]

theorem frontOf_eq_fenced_iff : frontOf tag body = Prompt.fenced tag code ↔
    body = code ++ '\n' :: fence := by
  rw [fenced_eq_frontOf, frontOf_eq, frontOf_eq, List.append_cancel_left_eq]

section Cut

variable (hline : '\n' ∉ tag) (htag : '\x60' ∉ tag) (hcode : '\x60' ∉ code)
  (hcut : frontOf tag body <+: Prompt.fenced tag code)

include hline in
theorem unopened_of_blank (h : blank body = true) :
    ∃ u, code? (frontOf tag body) = some ('\x60' :: u) := by
  have htrim := trim_frontOf_of_blank tag h
  refine exists_code?_of_unopened (htrim ▸ List.prefix_append fence _) fun u hu => ?_
  rw [htrim] at hu
  refine opening?_of_newline_not_mem fun hmem => ?_
  rcases List.mem_append.1 (hu.subset hmem) with hmem | hmem
  · exact newline_not_mem_fence hmem
  · exact hline (trimRight_subset tag hmem)

include htag hcode hcut in
/-- Only the first mark of the front of a block can open one. -/
theorem opening?_of_suffix_frontOf (hu : u <:+ frontOf tag (trimRight body)) :
    u = frontOf tag (trimRight body) ∨ opening? u = none := by
  obtain ⟨rest, hrest⟩ : ∃ rest, frontOf tag (trimRight body) = '\x60' :: rest := ⟨_, rfl⟩
  have hfront : '\x60' :: rest <+: Prompt.fenced tag code := by
    rw [← hrest, frontOf_prefix_iff]
    obtain ⟨b, -, hb⟩ := exists_trimRight body
    exact (hb ▸ List.prefix_append _ b).trans (frontOf_prefix_iff.1 hcut)
  rw [hrest] at hu ⊢
  rcases List.suffix_cons_iff.1 hu with hu | hu
  · exact Or.inl hu
  · exact Or.inr (opening?_later_of_cut htag hcode hfront hu)

include hline htag hcode hcut

theorem unopened_of_tag (hbad : blank (tag.dropWhile isTag) = false) (h : blank body = false) :
    ∃ u, code? (frontOf tag body) = some ('\x60' :: u) := by
  have htrim := trim_frontOf_of_filled tag h
  refine exists_code?_of_unopened (htrim ▸ List.prefix_append fence _) fun u hu => ?_
  rw [htrim] at hu
  rcases opening?_of_suffix_frontOf htag hcode hcut hu with rfl | hnone
  · rw [frontOf, opening?_fence_append hline, hbad, if_neg Bool.false_ne_true]
  · exact hnone

/-- A block that is not closed gives all that follows its opening line. -/
theorem code?_of_open (hgood : blank (tag.dropWhile isTag) = true) (h : blank body = false)
    (hopen : hasPart fence body = false) : code? (frontOf tag body) = some (Text.trim body) := by
  obtain ⟨b, hb, hbody⟩ := exists_trimRight body
  have hfirst : opening? (frontOf tag (trimRight body)) = some (trimRight body) := by
    rw [frontOf, opening?_fence_append hline, hgood, if_pos rfl]
  have hfilled : blank (trimRight body) = false := by
    rwa [hbody, blank_append, hb, Bool.and_true] at h
  have htrim : Text.trim (trimRight body) = Text.trim body := by
    conv_rhs => rw [hbody]
    exact (trim_append_blank _ hb).symm
  have hclosed : findValue closedBlock (frontOf tag (trimRight body)) = none := by
    refine findValue_eq_none fun u before hu => ?_
    rcases opening?_of_suffix_frontOf htag hcode hcut hu with rfl | hnone
    · have hpart : hasPart fence (trimRight body) = false :=
        not_hasPart_of_isInfix hopen (hbody ▸ List.prefix_append _ b).isInfix
      rw [hasPart, Option.isSome_eq_false_iff, Option.isNone_iff_eq_none] at hpart
      rw [closedBlock, hfirst]
      simp only [Option.bind_eq_bind, Option.bind_some, hpart, Option.bind_none]
    · rw [closedBlock, hnone]
      rfl
  have hfound : findValue openBlock (frontOf tag (trimRight body)) = some (trimRight body) := by
    have hne : trimRight body ≠ [] := by
      intro e
      rw [e] at hfilled
      cases hfilled
    refine findValue_of_here fun before => ?_
    rw [openBlock, hfirst]
    simp [guard, hne]
  have hpresent : present? (trimRight body) = some (Text.trim body) := by
    rw [present?_of_not_blank hfilled, htrim]
  have htrimmed := trim_frontOf_of_filled tag h
  rw [← htrimmed] at hclosed hfound
  exact code?_of_openBlock (htrimmed ▸ List.prefix_append fence _) hclosed hfound hpresent

end Cut

/-- The whole block gives its code. -/
theorem code?_of_whole (hline : '\n' ∉ tag) (hgood : blank (tag.dropWhile isTag) = true)
    (hcode : '\x60' ∉ code) : code? (frontOf tag (code ++ '\n' :: fence)) = present? code := by
  have htrimmed : Text.trim (frontOf tag (code ++ '\n' :: fence)) =
      frontOf tag (code ++ '\n' :: fence) := by
    have hend : code ++ '\n' :: fence = (code ++ "\n``".toList) ++ ['\x60'] := by
      simp [fence]
    have hfilled : blank (code ++ '\n' :: fence) = false := by
      rw [hend, blank_append]
      exact Bool.and_false _
    rw [trim_frontOf_of_filled tag hfilled, hend, trimRight_append_of_not_isBlank _ (by decide)]
  have hpart : hasPart fence code = false := not_hasPart_fence_of_not_mem hcode
  have hclosed : findValue closedBlock (frontOf tag (code ++ '\n' :: fence)) =
      some (code ++ ['\n']) := by
    refine findValue_of_here fun before => ?_
    have hcut := cut?_append_newline newline_not_mem_fence (by decide) hpart []
    rw [List.append_nil] at hcut
    rw [closedBlock, frontOf, opening?_fence_append hline, if_pos hgood]
    simp only [Option.bind_eq_bind, Option.bind_some, hcut]
    rfl
  have hfence : fence <+: Text.trim (frontOf tag (code ++ '\n' :: fence)) := by
    rw [htrimmed]
    exact List.prefix_append fence _
  rw [← htrimmed] at hclosed
  rw [code?_of_closedBlock hfence hclosed]
  exact present?_append_blank code (by decide)

/-- A front without a mark is one of the code and the end of its last line. -/
theorem prefix_of_not_mem (hbody : body <+: code ++ '\n' :: fence) (h : '\x60' ∉ body) :
    body <+: code ++ ['\n'] := by
  have hparts : code ++ '\n' :: fence = (code ++ ['\n']) ++ fence := by
    rw [List.append_assoc]
    rfl
  rw [hparts] at hbody
  rcases List.prefix_or_prefix_of_prefix hbody (List.prefix_append _ fence) with hfront | ⟨r, rfl⟩
  · exact hfront
  · obtain ⟨s, hs⟩ := (List.prefix_append_right_inj _).1 hbody
    cases r with
    | nil => exact (List.append_nil (code ++ ['\n'])).symm ▸ List.prefix_rfl
    | cons c r =>
        have hc : c = '\x60' := (List.cons.inj hs).1
        exact absurd (List.mem_append_right _ (hc ▸ List.mem_cons_self)) h

/-- A front that is not all of the block has no fence behind its opening line. -/
theorem not_hasPart_of_cut (hcode : '\x60' ∉ code) (hbody : body <+: code ++ '\n' :: fence)
    (h : body ≠ code ++ '\n' :: fence) : hasPart fence body = false := by
  have hparts : code ++ '\n' :: fence = (code ++ "\n``".toList) ++ ['\x60'] := by
    simp [fence]
  rw [hparts] at hbody h
  have hfront : body <+: code ++ "\n``".toList :=
    (List.prefix_concat_iff.1 hbody).resolve_left h
  refine not_hasPart_fence (Nat.lt_of_le_of_lt (hfront.sublist.count_le '\x60') ?_)
  rw [List.count_append, List.count_eq_zero_of_not_mem hcode]
  decide

/-- The front of a block shows the front of its code: the tag is one, some of the code is there, and
the cut is not in the fence behind the code. -/
def ShowsCode (tag code body : Text) : Prop :=
  blank (tag.dropWhile isTag) = true ∧ blank body = false ∧
    ('\x60' ∈ body → frontOf tag body = Prompt.fenced tag code)

section ShowsCode

variable (hline : '\n' ∉ tag) (htag : '\x60' ∉ tag) (hcode : '\x60' ∉ code)
  (hcut : frontOf tag body <+: Prompt.fenced tag code)

include hline htag hcode hcut

theorem code?_of_showsCode (hfilled : blank code = false) (h : ShowsCode tag code body) :
    code? (frontOf tag body) = some (Text.trim (body.takeWhile (· ≠ '\x60'))) := by
  obtain ⟨hgood, hbody, hwhole⟩ := h
  by_cases hmark : '\x60' ∈ body
  · obtain rfl := frontOf_eq_fenced_iff.1 (hwhole hmark)
    have hfront : (code ++ '\n' :: fence).takeWhile (· ≠ '\x60') = code ++ ['\n'] := by
      have hnone : ∀ c ∈ code, decide (c ≠ '\x60') = true := fun c hc =>
        decide_eq_true fun e => hcode (e ▸ hc)
      rw [List.takeWhile_append_of_pos hnone]
      rfl
    rw [code?_of_whole hline hgood hcode, hfront, trim_append_blank code (by decide)]
    exact present?_of_not_blank hfilled
  · have hfront : body.takeWhile (· ≠ '\x60') = body :=
      List.takeWhile_eq_self_iff.2 fun c hc => decide_eq_true fun e => hmark (e ▸ hc)
    rw [hfront, code?_of_open hline htag hcode hcut hgood hbody (not_hasPart_fence_of_not_mem hmark)]

/-- Otherwise a mark of a fence is taken for code. -/
theorem exists_code?_of_not_showsCode (h : ¬ ShowsCode tag code body) :
    ∃ u, code? (frontOf tag body) = some u ∧ '\x60' ∈ u := by
  cases hbody : blank body with
  | true =>
      obtain ⟨u, hu⟩ := unopened_of_blank hline hbody
      exact ⟨_, hu, List.mem_cons_self⟩
  | false =>
      cases hgood : blank (tag.dropWhile isTag) with
      | false =>
          obtain ⟨u, hu⟩ := unopened_of_tag hline htag hcode hcut hgood hbody
          exact ⟨_, hu, List.mem_cons_self⟩
      | true =>
          have hinside : '\x60' ∈ body ∧ frontOf tag body ≠ Prompt.fenced tag code :=
            Classical.not_imp.1 fun hwhole => h ⟨hgood, hbody, hwhole⟩
          have hopen := not_hasPart_of_cut hcode (frontOf_prefix_iff.1 hcut)
            (mt frontOf_eq_fenced_iff.2 hinside.2)
          exact ⟨_, code?_of_open hline htag hcode hcut hgood hbody hopen,
            mem_trim hinside.1 (by decide)⟩

end ShowsCode

theorem takeWhile_prefix_code (hcut : frontOf tag body <+: Prompt.fenced tag code) :
    Text.trim (body.takeWhile (· ≠ '\x60')) <+: Text.trim code := by
  have hprefix : body.takeWhile (· ≠ '\x60') <+: code ++ ['\n'] := by
    refine prefix_of_not_mem ((List.takeWhile_prefix _).trans (frontOf_prefix_iff.1 hcut)) ?_
    intro hmem
    simpa using List.mem_takeWhile_imp hmem
  rw [← trim_append_blank code (show blank ['\n'] = true from rfl)]
  exact trim_prefix_trim hprefix

/-- **What a block gives that is cut off.** A block of code without a mark of a fence is cut off
behind its opening line. What is extracted from the front is in front of the code, and has no mark of
a fence in it, exactly if the tag is one, some of the code is there, and the cut is not in the fence
behind the code; it is then the code up to the cut. -/
theorem code?_of_cut (hline : '\n' ∉ tag) (htag : '\x60' ∉ tag) (hcode : '\x60' ∉ code)
    (hfilled : blank code = false) (hcut : frontOf tag body <+: Prompt.fenced tag code) :
    ((∀ u, code? (frontOf tag body) = some u → u <+: Text.trim code) ↔ ShowsCode tag code body) ∧
      ((∀ u, code? (frontOf tag body) = some u → '\x60' ∉ u) ↔ ShowsCode tag code body) ∧
      (ShowsCode tag code body →
        code? (frontOf tag body) = some (Text.trim (body.takeWhile (· ≠ '\x60')))) := by
  have hshows := code?_of_showsCode hline htag hcode hcut hfilled
  have hfront := takeWhile_prefix_code hcut
  have hclean : '\x60' ∉ Text.trim code := fun hmem => hcode (trim_subset code hmem)
  by_cases h : ShowsCode tag code body
  · have hvalue := hshows h
    refine ⟨iff_of_true (fun u hu => ?_) h, iff_of_true (fun u hu => ?_) h, hshows⟩
    · exact Option.some.inj (hvalue.symm.trans hu) ▸ hfront
    · exact Option.some.inj (hvalue.symm.trans hu) ▸ fun hmem => hclean (hfront.subset hmem)
  · obtain ⟨u, hu, hmark⟩ := exists_code?_of_not_showsCode hline htag hcode hcut h
    refine ⟨iff_of_false (fun hall => ?_) h, iff_of_false (fun hall => hall u hu hmark) h, hshows⟩
    exact hclean ((hall u hu).subset hmark)

/-- A block that is cut off in its second line of code. -/
theorem code?_of_second_line_cut :
    let code : Text := "  f();\n  g();".toList
    let body : Text := "  f();\n  g".toList
    frontOf "c++ ".toList body <+: Prompt.fenced "c++ ".toList code ∧
      ShowsCode "c++ ".toList code body ∧
      code? (frontOf "c++ ".toList body) = some "f();\n  g".toList := by
  intro code body
  have hcut : frontOf "c++ ".toList body <+: Prompt.fenced "c++ ".toList code := by decide +kernel
  have hshows : ShowsCode "c++ ".toList code body := ⟨by decide, by decide, by decide⟩
  have hvalue := (code?_of_cut (by decide) (by decide) (by decide) (by decide) hcut).2.2 hshows
  exact ⟨hcut, hshows, hvalue.trans (by decide +kernel)⟩

/-- Behind the opening line the fence in front is taken for code, and in the fence behind the code
two marks of it are. -/
theorem code?_of_fence_cut :
    let tag : Text := "js".toList
    let code : Text := "const x=1;".toList
    '\x60' ∉ code ∧ blank code = false ∧
      frontOf tag [] <+: Prompt.fenced tag code ∧
      code? (frontOf tag []) = some "```js".toList ∧
      frontOf tag (code ++ "\n``".toList) <+: Prompt.fenced tag code ∧
      code? (frontOf tag (code ++ "\n``".toList)) = some (code ++ "\n``".toList) ∧
      ¬ "```js".toList <+: Text.trim code ∧ ¬ code ++ "\n``".toList <+: Text.trim code := by
  intro tag code
  exact ⟨by decide, by decide, by decide +kernel, by decide +kernel, by decide +kernel,
    by decide +kernel, by decide, by decide +kernel⟩

end Refinery.Extract
