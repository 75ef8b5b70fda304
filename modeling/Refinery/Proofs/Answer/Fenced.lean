import Refinery.Answer.Dangling
import Refinery.Answer.Extract
import Refinery.Proofs.Text.Parts
import Refinery.Proofs.Text.Scan
import Refinery.Proofs.Text.Trim
import Refinery.Prompt.Basic

/-!
Fenced blocks in answers. What is extracted from a text is the code of its first block without the
blanks around it, whatever stands in front of the block and behind it, provided that the code holds
no fence. A block by itself never looks incomplete.
-/

namespace Refinery

namespace Extract

open Text

theorem present?_append_blank {b : Text} (t : Text) (h : blank b = true) :
    present? (t ++ b) = present? t := by
  rw [present?, present?, trim_append_blank t h]

theorem present?_of_blank {t : Text} (h : blank t = true) : present? t = none := by
  rw [present?, trim_eq_nil_iff.2 h]
  rfl

theorem present?_of_not_blank {t : Text} (h : blank t = false) : present? t = some (trim t) := by
  have hne : (trim t).isEmpty = false := by
    rw [List.isEmpty_eq_false_iff]
    intro e
    rw [trim_eq_nil_iff.1 e] at h
    cases h
  simp [present?, hne]

theorem newline_not_mem_fence : '\n' ∉ fence := by decide

/-- A fenced block in its parts. -/
theorem fenced_eq (tag code : Text) :
    Prompt.fenced tag code = fence ++ (tag ++ '\n' :: (code ++ '\n' :: (fence ++ []))) := by
  have hassoc : ∀ a b c d e : Text, a ++ b ++ c ++ d ++ e = a ++ (b ++ (c ++ (d ++ e))) := by
    intro a b c d e
    simp only [List.append_assoc]
  exact hassoc fence tag ['\n'] code ('\n' :: (fence ++ []))

/-- A fenced block ends with the last mark of a fence. -/
theorem exists_fenced_eq (tag code : Text) : ∃ t, Prompt.fenced tag code = t ++ ['\x60'] := by
  refine ⟨"```".toList ++ tag ++ ['\n'] ++ code ++ "\n``".toList, ?_⟩
  exact (List.append_assoc ("```".toList ++ tag ++ ['\n'] ++ code) "\n``".toList ['\x60']).symm

theorem not_blank_fenced (tag code : Text) : blank (Prompt.fenced tag code) = false := rfl

/-- The opening line of a block is passed over. -/
theorem opening?_fence {tag : Text} (htag : tag.all isTag = true) (body : Text) :
    opening? (fence ++ (tag ++ '\n' :: body)) = some body := by
  have hdrop : (tag ++ '\n' :: body).dropWhile isTag = '\n' :: body := by
    rw [List.dropWhile_append_of_pos (List.all_eq_true.1 htag), List.dropWhile_cons_of_neg]
    decide
  rw [opening?, after?_append]
  simp only [Option.bind_eq_bind, Option.bind_some, hdrop]
  rw [List.dropWhile_cons_of_neg (by decide)]
  rfl

/-- A block ends with the fence behind its code, whatever follows. -/
theorem closedBlock_fenced {tag code : Text} (htag : tag.all isTag = true)
    (hcode : hasPart fence code = false) (before : Option Char) (s : Text) :
    closedBlock before (Prompt.fenced tag code ++ s) = some (code ++ ['\n']) := by
  have hparts : Prompt.fenced tag code ++ s =
      fence ++ (tag ++ '\n' :: (code ++ '\n' :: (fence ++ s))) := by
    rw [fenced_eq]
    simp only [List.append_assoc, List.cons_append, List.append_nil]
  rw [hparts, closedBlock, opening?_fence htag]
  simp only [Option.bind_eq_bind, Option.bind_some,
    cut?_append_newline newline_not_mem_fence (by decide) hcode]
  rfl

/-- Text without a fence and the fence behind it do not open a block at a place of the text: a mark
of the fence would stand where the tag or the end of the line has to be. -/
theorem opening?_append_fence {c : Char} {p : Text} (hp : hasPart fence (c :: p) = false)
    (u : Text) : opening? (c :: p ++ (fence ++ u)) = none := by
  have hmark : ∀ v, opening? ("```".toList ++ '\x60' :: v) = none := fun _ => rfl
  by_cases hfence : fence <+: c :: p ++ (fence ++ u)
  · cases p with
    | nil =>
        obtain rfl : '\x60' = c := by simpa [fence] using hfence
        exact hmark u
    | cons d p =>
        cases p with
        | nil =>
            obtain ⟨rfl, rfl⟩ : '\x60' = c ∧ '\x60' = d := by simpa [fence] using hfence
            exact hmark ('\x60' :: u)
        | cons e p =>
            have hlength : fence.length ≤ (c :: d :: e :: p).length := Nat.le_add_left 3 p.length
            have hhere : fence <+: c :: d :: e :: p :=
              List.prefix_of_prefix_length_le hfence (List.prefix_append _ _) hlength
            rw [hasPart_iff.2 hhere.isInfix] at hp
            cases hp
  · rw [opening?, after?, if_neg (mt List.isPrefixOf_iff_prefix.1 hfence)]
    rfl

/-- The opening words of an announcement stand in front of a fence. -/
theorem exists_of_afterOpening? {p q u : Text} (h : afterOpening? (p ++ '\x60' :: q) = some u) :
    ∃ p', p' <:+ p ∧ u = p' ++ '\x60' :: q := by
  have hwords : ∀ a ∈ announcements, '\x60' ∉ a.1.toList ∧ ∀ w ∈ a.2, '\x60' ∉ w.toList := by
    decide
  have hfolded : folded (p ++ '\x60' :: q) = folded p ++ '\x60' :: folded q := List.map_append
  unfold afterOpening? at h
  obtain ⟨⟨first, second⟩, ha, h⟩ := List.exists_of_findSome?_eq_some h
  obtain ⟨hfirst, hsecond⟩ := hwords _ ha
  rw [hfolded] at h
  obtain ⟨rest, hrest, h⟩ := Option.bind_eq_some_iff.1 h
  obtain ⟨x, hx, rfl⟩ := exists_of_after? hfirst hrest
  have hend : ∃ y, y <:+ folded p ∧ u = (p ++ '\x60' :: q).drop
      ((p ++ '\x60' :: q).length - (y ++ '\x60' :: folded q).length) := by
    cases second with
    | none => exact ⟨x, hx, (Option.some.inj h).symm⟩
    | some word =>
        obtain ⟨after, hafter, hu⟩ := Option.bind_eq_some_iff.1 h
        obtain ⟨blanked, hblanked, hword⟩ := Option.bind_eq_some_iff.1 hafter
        obtain ⟨y, hy, rfl⟩ := exists_of_someBlanks? (by decide) hblanked
        obtain ⟨z, hz, rfl⟩ := exists_of_after? (hsecond word rfl) hword
        exact ⟨z, hz.trans (hy.trans hx), (Option.some.inj hu).symm⟩
  obtain ⟨y, hy, rfl⟩ := hend
  have hlength : y.length ≤ p.length := by
    have hle := hy.length_le
    rwa [folded, List.length_map] at hle
  refine ⟨p.drop (p.length - y.length), List.drop_suffix _ _, ?_⟩
  have hcount : (p ++ '\x60' :: q).length - (y ++ '\x60' :: folded q).length =
      p.length - y.length := by
    simp only [List.length_append, List.length_cons, folded, List.length_map]
    omega
  rw [hcount, List.drop_append_of_le_length (Nat.sub_le _ _)]

/-- The line that a block opens on does not end in a colon. -/
theorem not_endsWith_colon {tag : Text} (htag : tag.all isTag = true) (p : Text) :
    endsWith [':'] (trimRight (p ++ fence ++ tag)) = false := by
  have hlast : ∀ {v : Text} {c : Char}, isBlank c = false → c ≠ ':' →
      endsWith [':'] (trimRight (v ++ [c])) = false := by
    intro v c hblank hc
    rw [trimRight_append_of_not_isBlank v hblank]
    refine not_endsWith_append_singleton (List.cons_ne_nil ':' []) (fun e => hc ?_) v
    exact (Option.some.inj e).symm
  rcases List.eq_nil_or_concat tag with rfl | ⟨front, c, rfl⟩
  · have hmarks : p ++ fence ++ [] = (p ++ "``".toList) ++ ['\x60'] := by
      rw [List.append_nil, List.append_assoc]
      rfl
    rw [hmarks]
    exact hlast (by decide) (by decide)
  · have hc : isTag c = true := List.all_eq_true.1 htag c (by simp)
    rw [List.concat_eq_append, ← List.append_assoc]
    refine hlast ?_ fun e => ?_
    · cases hblank : isBlank c with
      | false => rfl
      | true =>
          rw [not_of_isBlank (p := isTag) (by decide +kernel) c hblank] at hc
          cases hc
    · rw [e] at hc
      exact absurd hc (by decide)

/-- The first line up to the code ends with the tag, if the block is on it. -/
theorem upTo?_newline_fenced {p tag : Text} (hp : '\n' ∉ p) (htag : tag.all isTag = true)
    (code s : Text) : upTo? '\n' (p ++ (Prompt.fenced tag code ++ s)) =
      some (p ++ fence ++ tag, code ++ "\n```".toList ++ s) := by
  have hline : '\n' ∉ p ++ fence ++ tag := by
    rw [List.mem_append, List.mem_append]
    rintro ((h | h) | h)
    · exact hp h
    · exact newline_not_mem_fence h
    · exact absurd (List.all_eq_true.1 htag '\n' h) (by decide)
  have hparts : p ++ (Prompt.fenced tag code ++ s) =
      (p ++ fence ++ tag) ++ '\n' :: (code ++ "\n```".toList ++ s) := by
    simp only [Prompt.fenced, fence, List.append_assoc]
    rfl
  rw [hparts, upTo?_append_cons hline]

/-- The first fence of the text opens the block. -/
def FirstBlock (tag code t : Text) : Prop :=
  ∃ p s, hasPart fence p = false ∧ t = p ++ Prompt.fenced tag code ++ s

namespace FirstBlock

variable {tag code t : Text}

theorem not_blank (h : FirstBlock tag code t) : blank t = false := by
  obtain ⟨p, s, -, rfl⟩ := h
  rw [blank_append, blank_append, not_blank_fenced, Bool.and_false, Bool.false_and]

protected theorem trim (h : FirstBlock tag code t) : FirstBlock tag code (Text.trim t) := by
  obtain ⟨p, s, hp, rfl⟩ := h
  obtain ⟨front, hfront⟩ : ∃ front, Prompt.fenced tag code = '\x60' :: front := ⟨_, rfl⟩
  obtain ⟨back, hback⟩ := exists_fenced_eq tag code
  refine ⟨trimLeft p, trimRight s, ?_, ?_⟩
  · exact not_hasPart_of_isInfix hp (List.dropWhile_suffix isBlank).isInfix
  · have hleft : trimLeft (p ++ Prompt.fenced tag code ++ s) =
        trimLeft p ++ Prompt.fenced tag code ++ s := by
      rw [hfront, List.append_assoc, List.cons_append, trimLeft_append_cons _ _ (by decide),
        List.append_assoc, List.cons_append]
    rw [Text.trim, hleft, hback, ← List.append_assoc, List.append_assoc _ ['\x60'],
      List.singleton_append, trimRight_append_cons _ _ (by decide), List.append_assoc _ ['\x60'],
      List.singleton_append]

/-- The search for a block finds this one. -/
theorem findValue_closedBlock (h : FirstBlock tag code t) (htag : tag.all isTag = true)
    (hcode : hasPart fence code = false) : findValue closedBlock t = some (code ++ ['\n']) := by
  obtain ⟨p, s, hp, rfl⟩ := h
  rw [List.append_assoc]
  refine findValue_append (fun c u before hu => ?_) fun before => ?_
  · have hnone := opening?_append_fence (not_hasPart_of_isInfix hp hu.isInfix)
      (tag ++ ['\n'] ++ code ++ "\n```".toList ++ s)
    have hparts : Prompt.fenced tag code ++ s =
        fence ++ (tag ++ ['\n'] ++ code ++ "\n```".toList ++ s) := by
      simp only [Prompt.fenced, fence, List.append_assoc]
    rw [hparts, closedBlock, hnone]
    rfl
  · exact closedBlock_fenced htag hcode before s

/-- An announcement ends in front of the block. -/
theorem afterAnnouncement (h : FirstBlock tag code t) (htag : tag.all isTag = true) {rest : Text}
    (hrest : afterAnnouncement? t = some rest) : FirstBlock tag code rest := by
  obtain ⟨p, s, hp, rfl⟩ := h
  obtain ⟨q, hq⟩ : ∃ q, Prompt.fenced tag code ++ s = '\x60' :: q := ⟨_, rfl⟩
  rw [List.append_assoc, hq] at hrest
  obtain ⟨u, hu, hrest⟩ := Option.bind_eq_some_iff.1 hrest
  obtain ⟨p', hp', rfl⟩ := exists_of_afterOpening? hu
  obtain ⟨⟨line, after⟩, hline, hrest⟩ := Option.bind_eq_some_iff.1 hrest
  obtain ⟨_, hcolon, hrest⟩ := Option.bind_eq_some_iff.1 hrest
  obtain rfl : after = rest := Option.some.inj hrest
  rw [← hq] at hline
  by_cases hmem : '\n' ∈ p'
  · obtain ⟨a, b, rfl, ha⟩ := List.eq_append_cons_of_mem hmem
    rw [List.append_assoc, List.cons_append, upTo?_append_cons ha, Option.some.injEq,
      Prod.mk.injEq] at hline
    refine ⟨b, s, not_hasPart_of_isInfix hp ?_, ?_⟩
    · exact ((List.suffix_cons '\n' b).trans ((List.suffix_append a _).trans hp')).isInfix
    · rw [← hline.2, List.append_assoc]
  · rw [upTo?_newline_fenced hmem htag, Option.some.injEq, Prod.mk.injEq] at hline
    rw [← hline.1, not_endsWith_colon htag] at hcolon
    cases hcolon

protected theorem withoutAnnouncement (h : FirstBlock tag code t) (htag : tag.all isTag = true) :
    FirstBlock tag code (Extract.withoutAnnouncement t) := by
  rw [Extract.withoutAnnouncement]
  cases hrest : afterAnnouncement? t with
  | none => exact h.trim
  | some rest => exact (h.afterAnnouncement htag hrest).trim

end FirstBlock

/-- What is extracted from a text with a block is the code of its first block. -/
theorem code?_of_firstBlock {tag code t : Text} (h : FirstBlock tag code t)
    (htag : tag.all isTag = true) (hcode : hasPart fence code = false) :
    code? t = present? code := by
  have hfind := (h.trim.withoutAnnouncement htag).findValue_closedBlock htag hcode
  rw [code?, h.not_blank]
  simp only [Bool.false_eq_true, if_false, hfind]
  exact present?_append_blank code (by decide)

/-- **The code in a fenced block is extracted without the blanks around it.** -/
theorem code?_fenced {tag code : Text} (htag : tag.all isTag = true)
    (hcode : hasPart fence code = false) : code? (Prompt.fenced tag code) = present? code := by
  have hfirst : FirstBlock tag code (Prompt.fenced tag code) :=
    ⟨[], [], rfl, by rw [List.nil_append, List.append_nil]⟩
  exact code?_of_firstBlock hfirst htag hcode

/-- **What stands around a fenced block does not matter**: behind any text without a fence, and in
front of any text whatever, the code of the block is extracted without the blanks around it, unless
it is blank. -/
theorem code?_around_fenced {p tag code : Text} (s : Text) (hp : hasPart fence p = false)
    (htag : tag.all isTag = true) (hcode : hasPart fence code = false) :
    code? (p ++ Prompt.fenced tag code ++ s) = if blank code then none else some (trim code) := by
  have hfirst : FirstBlock tag code (p ++ Prompt.fenced tag code ++ s) := ⟨p, s, hp, rfl⟩
  rw [code?_of_firstBlock hfirst htag hcode]
  cases hblank : blank code with
  | true => exact present?_of_blank hblank
  | false => exact present?_of_not_blank hblank

/-- An announcement and two marks directly in front of the block, and a second block behind it. -/
theorem code?_around_fenced_of_two_blocks :
    let p : Text := "Here is the code:\n\nSee `f`: ``".toList
    let s : Text := "\nor\n```\nh()\n```".toList
    let code : Text := "  f(`x`)\n\n".toList
    hasPart fence p = false ∧ "c++".toList.all isTag = true ∧ hasPart fence code = false ∧
      code? (p ++ Prompt.fenced "c++".toList code ++ s) = some "f(`x`)".toList := by
  intro p s code
  have hp : hasPart fence p = false := by decide
  have htag : "c++".toList.all isTag = true := by decide
  have hcode : hasPart fence code = false := by decide
  exact ⟨hp, htag, hcode, code?_around_fenced s hp htag hcode⟩

end Extract

namespace Dangling

open Text

theorem endsInOneOf_append_singleton {tails : List String} {c : Char} (t : Text)
    (h : ∀ s ∈ tails, s.toList ≠ [] ∧ s.toList.getLast? ≠ some c) :
    endsInOneOf tails (t ++ [c]) = false := by
  rw [endsInOneOf, List.any_eq_false]
  intro s hs
  obtain ⟨hne, hlast⟩ := h s hs
  rw [not_endsWith_append_singleton hne hlast t]
  exact Bool.false_ne_true

/-- A fenced block is closed, so that nothing seems to be missing. -/
theorem not_looksIncomplete_fenced (tag code : Text) :
    looksIncomplete (Prompt.fenced tag code) = false := by
  obtain ⟨t, ht⟩ := Extract.exists_fenced_eq tag code
  have htail : trimRight (t ++ ['\x60']) = t ++ ['\x60'] :=
    trimRight_append_of_not_isBlank t (by decide)
  have hbracket : endsWith ['('] (t ++ ['\x60']) = false :=
    not_endsWith_append_singleton (by decide) (by decide) t
  have hdots : endsInOneOf ["...", "..", " -> "] (t ++ ['\x60']) = false :=
    endsInOneOf_append_singleton t (by decide)
  have hopen : endsInOneOf ["\x7b", "\x5c", "/*"] (t ++ ['\x60']) = false :=
    endsInOneOf_append_singleton t (by decide)
  have hwords : openWords.contains [] = false := by decide
  have hword : lastWord (folded (t ++ ['\x60'])) = [] := by
    have hfolded : folded (t ++ ['\x60']) = folded t ++ ['\x60'] := List.map_append
    rw [lastWord, hfolded, List.reverse_append, List.reverse_singleton, List.singleton_append,
      List.takeWhile_cons_of_neg (by decide)]
    rfl
  rw [looksIncomplete, ht, htail]
  simp only [hdots, hbracket, hword, hwords, hopen, Bool.false_and, Bool.or_false]

end Dangling
end Refinery
