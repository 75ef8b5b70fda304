import Mathlib.Computability.Language
import Refinery.Answer.Extract
import Refinery.Proofs.Text.Scan
import Refinery.Proofs.Text.Trim

/-!
Prose. A line looks like prose where its trimmed form is in a regular language that is stated apart
from the test: a capital with small letters behind it, two or more small words with blanks in front
of each, and a stop. The test compares words; the words of a text are its runs between blanks.
-/

/-- Languages of texts. The name of the library's type is taken inside the namespace, where a
language is one that programs are written in. -/
abbrev CharLanguage : Type := Language Char

namespace Refinery

open Computability

namespace Text

variable {p : Char → Bool} {c : Char} {b t w : Text}

/-- The texts of a single character of a class. -/
def one (p : Char → Bool) : CharLanguage := {t | ∃ c, p c = true ∧ t = [c]}

/-- The texts of characters of a class only. -/
def every (p : Char → Bool) : CharLanguage := {t | t.all p = true}

/-- The texts of characters of a class that are not empty. -/
def run (p : Char → Bool) : CharLanguage := {t | t ≠ [] ∧ t.all p = true}

theorem mem_one : t ∈ one p ↔ ∃ c, p c = true ∧ t = [c] := Iff.rfl

theorem mem_run : t ∈ run p ↔ t ≠ [] ∧ t.all p = true := Iff.rfl

theorem not_isBlank_of_class (hall : blanks.any p = false) (hc : p c = true) :
    isBlank c = false := by
  rw [Bool.eq_false_iff]
  intro hblank
  rw [not_of_isBlank hall c hblank] at hc
  cases hc

/-- The runs of a text between its blanks. -/
def wordsOf (t : Text) : List Text := (t.splitOnP isBlank).filter (!·.isEmpty)

@[simp] theorem wordsOf_nil : wordsOf [] = [] := rfl

theorem wordsOf_blank_append (hb : blank b = true) (t : Text) : wordsOf (b ++ t) = wordsOf t := by
  induction b with
  | nil => rfl
  | cons c b ih =>
      rw [blank_cons, Bool.and_eq_true] at hb
      rw [List.cons_append, wordsOf, List.splitOnP_cons_eq_if_modifyHead, if_pos hb.1]
      exact ih hb.2

/-- A word in front goes up to the first blank. -/
theorem wordsOf_append (hne : w ≠ []) (hw : ∀ c ∈ w, isBlank c = false)
    (ht : ∀ c ∈ t.head?, isBlank c = true) : wordsOf (w ++ t) = w :: wordsOf t := by
  have hfilled : (!List.isEmpty w) = true := by rw [List.isEmpty_eq_false_iff.2 hne]; rfl
  have hcons : ∀ ws : List Text, (w :: ws).filter (!·.isEmpty) = w :: ws.filter (!·.isEmpty) :=
    fun ws => List.filter_cons_of_pos hfilled
  cases t with
  | nil => rw [List.append_nil, wordsOf, List.splitOnP_eq_singleton hw, hcons, wordsOf_nil,
      List.filter_nil]
  | cons c t =>
      have hc : isBlank c = true := ht c rfl
      have hskip : wordsOf (c :: t) = wordsOf t :=
        wordsOf_blank_append (b := [c]) (by rw [blank_cons, hc]; rfl) t
      rw [hskip, wordsOf, List.splitOnP_append_cons_of_forall_mem hw c hc, hcons, wordsOf]

/-- A text that does not begin with a blank is a word and what is behind it. -/
theorem exists_word (hne : t ≠ []) (hhead : ∀ c ∈ t.head?, isBlank c = false) :
    ∃ w u, w ≠ [] ∧ (∀ c ∈ w, isBlank c = false) ∧ (∀ c ∈ u.head?, isBlank c = true) ∧
      t = w ++ u := by
  obtain ⟨c, t, rfl⟩ := List.exists_cons_of_ne_nil hne
  have hc : (!isBlank c) = true := by rw [hhead c rfl]; rfl
  refine ⟨(c :: t).takeWhile (!isBlank ·), (c :: t).dropWhile (!isBlank ·), ?_, ?_, ?_,
    List.takeWhile_append_dropWhile.symm⟩
  · rw [List.takeWhile_cons_of_pos (p := fun d => !isBlank d) hc]
    exact List.cons_ne_nil c _
  · intro d hd
    simpa using List.mem_takeWhile_imp (p := fun d => !isBlank d) hd
  · intro d hd
    have hstop := List.head?_dropWhile_not (fun d => !isBlank d) (c :: t)
    rw [Option.mem_def.1 hd] at hstop
    simpa using hstop

theorem not_isBlank_head?_trimLeft (t : Text) : ∀ c ∈ (trimLeft t).head?, isBlank c = false := by
  intro c hc
  obtain ⟨u, hu⟩ := List.head?_eq_some_iff.1 hc
  exact not_isBlank_of_trimLeft hu

/-- Only a blank text has no words. -/
theorem blank_of_wordsOf_eq_nil (h : wordsOf t = []) : blank t = true := by
  by_contra hblank
  obtain ⟨a, ha, hat⟩ := exists_trimLeft t
  have hne : trimLeft t ≠ [] := mt trimLeft_eq_nil_iff.1 hblank
  obtain ⟨w, u, hw, hletters, hu, hwu⟩ := exists_word hne (not_isBlank_head?_trimLeft t)
  rw [hat, wordsOf_blank_append ha, hwu, wordsOf_append hw hletters hu] at h
  cases h

end Text

namespace Extract

open Text

variable {c : Char} {t v w line : Text} {ws L : List Text}

/-- A small word with blanks in front of it. -/
def spaced : CharLanguage := run isBlank * run isSmall

/-- A capitalised word and two or more small ones. -/
def sentence : CharLanguage := one Char.isUpper * run isSmall * (spaced ^ 2 * spaced∗)

def isStop (c : Char) : Bool := c == '.' || c == '!' || c == '?'

/-- A sentence with a stop directly behind it. -/
def prose : CharLanguage := sentence * one isStop

/-- A line of prose, with any blanks around it. -/
def IsProse (line : Text) : Prop := trim line ∈ prose

theorem not_isBlank_of_isSmall (h : isSmall c = true) : isBlank c = false :=
  not_isBlank_of_class (by decide) h

theorem not_isBlank_of_run (hw : w ∈ run isSmall) : ∀ c ∈ w, isBlank c = false := fun c hc =>
  not_isBlank_of_isSmall (List.all_eq_true.1 hw.2 c hc)

theorem mem_spaced : t ∈ spaced ↔
    ∃ b ∈ run isBlank, ∃ w ∈ run isSmall, b ++ w = t := Language.mem_mul

/-- Two or more spaced words. -/
theorem mem_spaced_pow_mul_kstar : t ∈ spaced ^ 2 * spaced∗ ↔
    ∃ L : List Text, 2 ≤ L.length ∧ (∀ y ∈ L, y ∈ spaced) ∧ t = L.flatten := by
  rw [Language.mem_mul]
  constructor
  · rintro ⟨a, ha, b, hb, rfl⟩
    obtain ⟨front, rfl, hlength, hfront⟩ := Language.mem_pow.1 ha
    obtain ⟨more, rfl, hmore⟩ := Language.mem_kstar.1 hb
    refine ⟨front ++ more, ?_, ?_, List.flatten_append.symm⟩
    · rw [List.length_append, hlength]
      exact Nat.le_add_right 2 more.length
    · exact fun y hy => (List.mem_append.1 hy).elim (hfront y) (hmore y)
  · rintro ⟨L, hlength, hL, rfl⟩
    refine ⟨(L.take 2).flatten, Language.mem_pow.2 ⟨L.take 2, rfl, ?_, ?_⟩,
      (L.drop 2).flatten, Language.join_mem_kstar fun y hy => hL y (List.mem_of_mem_drop hy), ?_⟩
    · exact List.length_take_of_le hlength
    · exact fun y hy => hL y (List.mem_of_mem_take hy)
    · rw [← List.flatten_append, List.take_append_drop]

theorem mem_sentence : t ∈ sentence ↔
    ∃ (c : Char) (w : Text) (L : List Text), c.isUpper = true ∧ w ∈ run isSmall ∧
      2 ≤ L.length ∧ (∀ y ∈ L, y ∈ spaced) ∧ t = c :: (w ++ L.flatten) := by
  rw [sentence, Language.mem_mul]
  constructor
  · rintro ⟨a, ha, b, hb, rfl⟩
    obtain ⟨x, hx, w, hw, rfl⟩ := Language.mem_mul.1 ha
    obtain ⟨c, hc, rfl⟩ := mem_one.1 hx
    obtain ⟨L, hlength, hL, rfl⟩ := mem_spaced_pow_mul_kstar.1 hb
    exact ⟨c, w, L, hc, hw, hlength, hL, rfl⟩
  · rintro ⟨c, w, L, hc, hw, hlength, hL, rfl⟩
    exact ⟨[c] ++ w, Language.append_mem_mul (mem_one.2 ⟨c, hc, rfl⟩) hw, L.flatten,
      mem_spaced_pow_mul_kstar.2 ⟨L, hlength, hL, rfl⟩, rfl⟩

theorem concat_mem_prose : t ++ [c] ∈ prose ↔ t ∈ sentence ∧ isStop c = true := by
  rw [prose, Language.mem_mul]
  constructor
  · rintro ⟨a, ha, b, hb, h⟩
    obtain ⟨d, hd, rfl⟩ := mem_one.1 hb
    obtain ⟨rfl, hcd⟩ := List.append_inj' h rfl
    obtain rfl := (List.cons.inj hcd).1
    exact ⟨ha, hd⟩
  · rintro ⟨ht, hc⟩
    exact ⟨t, ht, [c], mem_one.2 ⟨c, hc, rfl⟩, rfl⟩

theorem nil_not_mem_prose : [] ∉ prose := by
  rintro ⟨a, ha, b, hb, h⟩
  obtain ⟨d, -, rfl⟩ := mem_one.1 hb
  exact List.cons_ne_nil d [] (List.append_eq_nil_iff.1 h).2

theorem head?_flatten_of_spaced (hL : ∀ y ∈ L, y ∈ spaced) :
    ∀ c ∈ L.flatten.head?, isBlank c = true := by
  cases L with
  | nil =>
      intro c hc
      cases hc
  | cons y L =>
      obtain ⟨b, ⟨hb, hblank⟩, w, -, rfl⟩ := mem_spaced.1 (hL y List.mem_cons_self)
      obtain ⟨d, b, rfl⟩ := List.exists_cons_of_ne_nil hb
      intro c hc
      obtain rfl := Option.some.inj hc
      exact isBlank_of_mem hblank d List.mem_cons_self

/-- Each spaced word is a small word of the text. -/
theorem wordsOf_flatten (hL : ∀ y ∈ L, y ∈ spaced) :
    (wordsOf L.flatten).length = L.length ∧ ∀ w ∈ wordsOf L.flatten, w ∈ run isSmall := by
  induction L with
  | nil => exact ⟨rfl, fun w hw => absurd hw List.not_mem_nil⟩
  | cons y L ih =>
      have hrest : ∀ y ∈ L, y ∈ spaced := fun z hz => hL z (List.mem_cons_of_mem y hz)
      obtain ⟨hlength, hsmall⟩ := ih hrest
      obtain ⟨b, ⟨-, hb⟩, w, hw, rfl⟩ := mem_spaced.1 (hL y List.mem_cons_self)
      have hwords : wordsOf ((b ++ w) :: L).flatten = w :: wordsOf L.flatten := by
        rw [List.flatten_cons, List.append_assoc, wordsOf_blank_append hb,
          wordsOf_append hw.1 (not_isBlank_of_run hw) (head?_flatten_of_spaced hrest)]
      rw [hwords]
      exact ⟨by rw [List.length_cons, List.length_cons, hlength],
        List.forall_mem_cons.2 ⟨hw, hsmall⟩⟩

/-- Where the words of a text are small, it is these words with blanks in front of each. The
induction takes one word off the front; that the text does not end in a blank carries over to what
is behind the word. -/
theorem exists_spaced_of_wordsOf (hv : wordsOf v = ws) (hsmall : ∀ w ∈ ws, w ∈ run isSmall)
    (hhead : ∀ c ∈ v.head?, isBlank c = true) (hlast : ∀ c ∈ v.getLast?, isBlank c = false) :
    ∃ L : List Text, L.length = ws.length ∧ (∀ y ∈ L, y ∈ spaced) ∧ v = L.flatten := by
  induction ws generalizing v with
  | nil =>
      have hblank : blank v = true := blank_of_wordsOf_eq_nil hv
      rcases List.eq_nil_or_concat' v with rfl | ⟨u, c, rfl⟩
      · exact ⟨[], rfl, fun y hy => absurd hy List.not_mem_nil, rfl⟩
      · have hc : isBlank c = true := isBlank_of_mem hblank c (by simp)
        rw [hlast c List.getLast?_concat] at hc
        cases hc
  | cons w ws ih =>
      obtain ⟨b, hb, hbv⟩ := exists_trimLeft v
      have hne : trimLeft v ≠ [] := by
        intro hnil
        rw [hbv, hnil, wordsOf_blank_append hb] at hv
        cases hv
      have hbne : b ≠ [] := by
        rintro rfl
        obtain ⟨c, hc⟩ := Option.isSome_iff_exists.1 (List.isSome_head?.2 hne)
        have hblank : isBlank c = true := hhead c (by rw [hbv]; exact hc)
        rw [not_isBlank_head?_trimLeft v c hc] at hblank
        cases hblank
      obtain ⟨w', u, hw', hletters, hu, hwu⟩ := exists_word hne (not_isBlank_head?_trimLeft v)
      rw [hbv, wordsOf_blank_append hb, hwu, wordsOf_append hw' hletters hu] at hv
      obtain ⟨rfl, hws⟩ := List.cons.inj hv
      have hulast : ∀ c ∈ u.getLast?, isBlank c = false := by
        intro c hc
        refine hlast c ?_
        rw [hbv, hwu, List.getLast?_append, List.getLast?_append, Option.mem_def.1 hc]
        rfl
      obtain ⟨hw, hrest⟩ := List.forall_mem_cons.1 hsmall
      obtain ⟨L, hlength, hL, hflatten⟩ := ih hws hrest hu hulast
      refine ⟨(b ++ w') :: L, ?_, List.forall_mem_cons.2 ⟨?_, hL⟩, ?_⟩
      · rw [List.length_cons, List.length_cons, hlength]
      · exact Language.append_mem_mul (mem_run.2 ⟨hbne, hb⟩) hw
      · rw [List.flatten_cons, ← hflatten, List.append_assoc, ← hwu, ← hbv]

theorem looksLikeProse_of_trim (h : trim line = t ++ [c]) : looksLikeProse line =
    (isStop c && !(t.getLast?.any isBlank) && match wordsOf t with
      | (d :: w) :: ws => d.isUpper && (!w.isEmpty && w.all isSmall) && decide (2 ≤ ws.length) &&
          ws.all fun w => !w.isEmpty && w.all isSmall
      | _ => false) := by
  rw [looksLikeProse, h, List.reverse_append, List.reverse_singleton, List.singleton_append]
  simp only [List.reverse_reverse]
  rfl

theorem mem_run_isSmall : w ∈ run isSmall ↔ (!w.isEmpty && w.all isSmall) = true := by
  rw [mem_run, Bool.and_eq_true, Bool.not_eq_true', List.isEmpty_eq_false_iff]

/-- The words of a sentence, which does not end in a blank. -/
theorem mem_sentence_iff_words (hhead : ∀ c ∈ t.head?, isBlank c = false) : t ∈ sentence ↔
    (∀ c ∈ t.getLast?, isBlank c = false) ∧ ∃ c w ws, wordsOf t = (c :: w) :: ws ∧
      c.isUpper = true ∧ w ∈ run isSmall ∧ 2 ≤ ws.length ∧ ∀ w ∈ ws, w ∈ run isSmall := by
  constructor
  · intro h
    obtain ⟨c, w, L, hc, hw, hlength, hL, rfl⟩ := mem_sentence.1 h
    have hletters : ∀ d ∈ c :: w, isBlank d = false :=
      List.forall_mem_cons.2 ⟨not_isBlank_of_class (by decide) hc, not_isBlank_of_run hw⟩
    obtain ⟨hwords, hsmall⟩ := wordsOf_flatten hL
    refine ⟨?_, c, w, wordsOf L.flatten, ?_, hc, hw, hwords ▸ hlength, hsmall⟩
    · -- The last spaced word ends in a letter.
      obtain ⟨front, y, rfl⟩ : ∃ front y, L = front ++ [y] := by
        rcases List.eq_nil_or_concat' L with rfl | h
        · cases hlength
        · exact h
      obtain ⟨b, -, v, hv, rfl⟩ := mem_spaced.1 (hL y (by simp))
      obtain ⟨u, d, rfl⟩ := (List.eq_nil_or_concat' v).resolve_left hv.1
      intro e he
      have hend : c :: (w ++ (front ++ [b ++ (u ++ [d])]).flatten) =
          (c :: (w ++ front.flatten ++ b ++ u)) ++ [d] := by
        simp
      rw [hend, List.getLast?_concat] at he
      obtain rfl := Option.some.inj he
      exact not_isBlank_of_run hv d (by simp)
    · exact wordsOf_append (List.cons_ne_nil c w) hletters (head?_flatten_of_spaced hL)
  · rintro ⟨hlast, c, w, ws, hwords, hc, hw, hlength, hsmall⟩
    have hne : t ≠ [] := by
      rintro rfl
      cases hwords
    obtain ⟨v, u, hv, hletters, hu, rfl⟩ := exists_word hne hhead
    rw [wordsOf_append hv hletters hu] at hwords
    obtain ⟨rfl, hws⟩ := List.cons.inj hwords
    have hulast : ∀ d ∈ u.getLast?, isBlank d = false := by
      intro d hd
      refine hlast d ?_
      rw [List.getLast?_append, Option.mem_def.1 hd]
      rfl
    obtain ⟨L, hL, hspaced, rfl⟩ := exists_spaced_of_wordsOf hws hsmall hu hulast
    exact mem_sentence.2 ⟨c, w, L, hc, hw, hL ▸ hlength, hspaced, rfl⟩

/-- A trimmed text does not begin with a blank. -/
theorem not_isBlank_head?_of_trim (h : trim line = t ++ v) : ∀ c ∈ t.head?, isBlank c = false := by
  intro c hc
  have hleft : trimLeft (t ++ v) = t ++ v := by
    refine trimLeft_of_trim ?_
    rw [← h, trim_trim]
  refine not_isBlank_head?_trimLeft (t ++ v) c ?_
  rw [hleft, List.head?_append, Option.mem_def.1 hc]
  rfl

/-- **A line looks like prose where it is prose.** -/
theorem looksLikeProse_iff : looksLikeProse line = true ↔ IsProse line := by
  rw [IsProse]
  rcases List.eq_nil_or_concat' (trim line) with h | ⟨t, c, h⟩
  · rw [looksLikeProse, h]
    exact iff_of_false Bool.false_ne_true nil_not_mem_prose
  · rw [looksLikeProse_of_trim h, h, concat_mem_prose,
      mem_sentence_iff_words (not_isBlank_head?_of_trim h)]
    have hlast : (!(t.getLast?.any isBlank)) = true ↔ ∀ d ∈ t.getLast?, isBlank d = false := by
      cases t.getLast? <;> simp
    rw [Bool.and_eq_true, Bool.and_eq_true, hlast]
    constructor
    · rintro ⟨⟨hstop, hend⟩, hwords⟩
      split at hwords
      · next d w ws heq =>
          rw [Bool.and_eq_true, Bool.and_eq_true, Bool.and_eq_true, decide_eq_true_eq] at hwords
          obtain ⟨⟨⟨hd, hw⟩, hlength⟩, hsmall⟩ := hwords
          exact ⟨⟨hend, d, w, ws, heq, hd, mem_run_isSmall.2 hw, hlength,
            fun v hv => mem_run_isSmall.2 (List.all_eq_true.1 hsmall v hv)⟩, hstop⟩
      · cases hwords
    · rintro ⟨⟨hend, d, w, ws, heq, hd, hw, hlength, hsmall⟩, hstop⟩
      refine ⟨⟨hstop, hend⟩, ?_⟩
      have hall : (ws.all fun v => !v.isEmpty && v.all isSmall) = true :=
        List.all_eq_true.2 fun v hv => mem_run_isSmall.1 (hsmall v hv)
      simp only [heq, hd, mem_run_isSmall.1 hw, hlength, hall, decide_true, Bool.and_self]

instance (line : Text) : Decidable (IsProse line) := decidable_of_iff _ looksLikeProse_iff

/-- The characters that prose is made of. -/
def isPlain (c : Char) : Bool := c.isUpper || isSmall c || isBlank c || isStop c

theorem isPlain_of_mem_prose (h : t ∈ prose) : ∀ c ∈ t, isPlain c = true := by
  obtain ⟨a, ha, b, hb, rfl⟩ := Language.mem_mul.1 h
  obtain ⟨stop, hstop, rfl⟩ := mem_one.1 hb
  obtain ⟨d, w, L, hd, hw, -, hL, rfl⟩ := mem_sentence.1 ha
  have hsmall : ∀ v ∈ run isSmall, ∀ c ∈ v, isPlain c = true := by
    intro v hv c hc
    simp [isPlain, List.all_eq_true.1 hv.2 c hc]
  have hspaced : ∀ c ∈ L.flatten, isPlain c = true := by
    intro c hc
    obtain ⟨y, hy, hc⟩ := List.mem_flatten.1 hc
    obtain ⟨b, hb, v, hv, rfl⟩ := mem_spaced.1 (hL y hy)
    rcases List.mem_append.1 hc with hc | hc
    · simp [isPlain, isBlank_of_mem hb.2 c hc]
    · exact hsmall v hv c hc
  intro c hc
  rcases List.mem_append.1 hc with hc | hc
  · rcases List.mem_cons.1 hc with rfl | hc
    · simp [isPlain, hd]
    · exact (List.mem_append.1 hc).elim (hsmall w hw c) (hspaced c)
  · simp [isPlain, List.mem_singleton.1 hc, hstop]

/-- A line with code punctuation is no prose, so it needs no test of its own. -/
theorem not_isProse_of_punctuation (hc : c ∈ "\x7b\x7d()[];=<>/*".toList) (h : c ∈ line) :
    ¬ IsProse line := by
  intro hprose
  have hpunctuation : "\x7b\x7d()[];=<>/*".toList.any isPlain = false := by decide
  have hplain : isPlain c = false := not_of_mem hpunctuation hc
  have hblank : isBlank c = false := by
    rw [isPlain, Bool.or_eq_false_iff, Bool.or_eq_false_iff] at hplain
    exact hplain.1.2
  rw [isPlain_of_mem_prose hprose c (mem_trim h hblank)] at hplain
  cases hplain

/-- Prose begins with a capital. -/
theorem exists_capital_of_isProse (h : IsProse line) :
    ∃ c u, trimLeft line = c :: u ∧ c.isUpper = true := by
  obtain ⟨b, -, hb⟩ := exists_trimRight (trimLeft line)
  obtain ⟨a, ha, stop, -, heq⟩ := Language.mem_mul.1 h
  obtain ⟨c, w, L, hc, -, -, -, rfl⟩ := mem_sentence.1 ha
  exact ⟨c, w ++ L.flatten ++ stop ++ b, by rw [hb, ← trim, ← heq]; rfl, hc⟩

end Extract
end Refinery
