import Mathlib.Data.List.TakeDrop
import Refinery.Proofs.Text.Parts
import Refinery.Proofs.Text.Trim
import Refinery.Text.Scan

/-!
Searching a text. A search answers what the first of all recognised places answers. To a recogniser
that begins at a character which is no blank, and to which blanks at the end say nothing, a text
and its trimmed form are the same.
-/

namespace Refinery.Text

variable {α β : Type}

/-- A search answers what the first recognised place answers. -/
theorem map_findFrom {r : Recogniser α} (hnil : ∀ before, r before [] = none)
    (before : Option Char) (t : Text) :
    (findFrom r before t).map (·.2) = (everyFrom r before t).head? := by
  induction t generalizing before with
  | nil =>
      unfold findFrom
      rw [hnil]
      rfl
  | cons c t ih =>
      unfold findFrom
      rw [everyFrom]
      cases hr : r before (c :: t) with
      | some a => rfl
      | none =>
          simp only
          rw [← ih (some c), Option.map_map]
          rfl

/-- A search goes past the places at which nothing is recognised. -/
theorem findValue_append {r : Recogniser α} {p t : Text} {a : α}
    (hp : ∀ c u before, c :: u <:+ p → r before (c :: u ++ t) = none)
    (ht : ∀ before, r before t = some a) : findValue r (p ++ t) = some a := by
  have hfind : ∀ before, (findFrom r before (p ++ t)).map (·.2) = some a := by
    induction p with
    | nil =>
        intro before
        unfold findFrom
        rw [List.nil_append, ht]
        rfl
    | cons c p ih =>
        intro before
        have hhere : r before (c :: (p ++ t)) = none := hp c p before List.suffix_rfl
        unfold findFrom
        rw [List.cons_append, hhere]
        simp only [Option.map_map]
        exact ih (fun d u b h => hp d u b (h.trans (List.suffix_cons c p))) (some c)
  exact hfind none

theorem findValue_of_here {r : Recogniser α} {t : Text} {a : α}
    (h : ∀ before, r before t = some a) : findValue r t = some a :=
  findValue_append (p := []) (fun c u _ hu => absurd (List.suffix_nil.1 hu) (List.cons_ne_nil c u)) h

/-- A search finds nothing where no place is recognised. -/
theorem findValue_eq_none {r : Recogniser α} {t : Text}
    (h : ∀ u before, u <:+ t → r before u = none) : findValue r t = none := by
  have hfind : ∀ before, findFrom r before t = none := by
    induction t with
    | nil =>
        intro before
        unfold findFrom
        rw [h [] before List.suffix_rfl]
    | cons c t ih =>
        intro before
        unfold findFrom
        rw [h (c :: t) before List.suffix_rfl]
        simp only [ih (fun u b hu => h u b (hu.trans (List.suffix_cons c t))) (some c),
          Option.map_none]
  rw [findValue, find, hfind, Option.map_none]

/-- A search answers as the recogniser does at some place, or the recogniser has no answer at
any. -/
theorem findValue_cases (r : Recogniser α) (t : Text) :
    (∃ a u before, findValue r t = some a ∧ u <:+ t ∧ r before u = some a) ∨
      (findValue r t = none ∧ ∀ u, u <:+ t → ∃ before, r before u = none) := by
  have hfind : ∀ before,
      (∃ a u b, (findFrom r before t).map (·.2) = some a ∧ u <:+ t ∧ r b u = some a) ∨
        ((findFrom r before t).map (·.2) = none ∧ ∀ u, u <:+ t → ∃ b, r b u = none) := by
    induction t with
    | nil =>
        intro before
        unfold findFrom
        cases hr : r before [] with
        | none => exact Or.inr ⟨rfl, fun u hu => ⟨before, by rw [List.suffix_nil.1 hu, hr]⟩⟩
        | some a => exact Or.inl ⟨a, [], before, rfl, List.suffix_rfl, hr⟩
    | cons c t ih =>
        intro before
        unfold findFrom
        cases hr : r before (c :: t) with
        | some a => exact Or.inl ⟨a, c :: t, before, rfl, List.suffix_rfl, hr⟩
        | none =>
            simp only [Option.map_map]
            rcases ih (some c) with ⟨a, u, b, ha, hu, hb⟩ | ⟨hnone, hall⟩
            · exact Or.inl ⟨a, u, b, ha, hu.trans (List.suffix_cons c t), hb⟩
            · refine Or.inr ⟨hnone, fun u hu => ?_⟩
              rcases List.suffix_cons_iff.1 hu with rfl | hu
              · exact ⟨before, hr⟩
              · exact hall u hu
  exact hfind none

/-- All blanks. -/
def blanks : List Char :=
  ([9, 10, 11, 12, 13, 28, 29, 30, 31, 32, 0x85, 0xA0, 0x1680, 0x2000, 0x2001, 0x2002, 0x2003,
    0x2004, 0x2005, 0x2006, 0x2007, 0x2008, 0x2009, 0x200A, 0x2028, 0x2029, 0x202F, 0x205F,
    0x3000] : List Nat).map Char.ofNat

theorem mem_blanks {c : Char} (h : isBlank c = true) : c ∈ blanks := by
  have hc : c = Char.ofNat c.toNat := (Char.ofNat_toNat c).symm
  rw [blanks, hc]
  refine List.mem_map_of_mem ?_
  simp only [isBlank, Bool.or_eq_true, Bool.and_eq_true, decide_eq_true_eq, beq_iff_eq] at h
  simp only [List.mem_cons, List.not_mem_nil, or_false]
  omega

theorem not_of_mem {p : Char → Bool} {t : Text} (h : t.any p = false) {c : Char} (hc : c ∈ t) :
    p c = false := Bool.eq_false_iff.2 (List.any_eq_false.1 h c hc)

/-- A test that fails on each of the blanks fails on every one. -/
theorem not_of_isBlank {p : Char → Bool} (hall : blanks.any p = false) (c : Char)
    (h : isBlank c = true) : p c = false := not_of_mem hall (mem_blanks h)

/-- Blanks behind a text say nothing to the function. -/
def Steady (f : Text → Option β) : Prop := ∀ t b, blank b = true → f (t ++ b) = f t

/-- A function to which blanks behind a text say nothing, and which has no answer for an empty
one. -/
structure Firm (f : Text → Option β) : Prop where
  steady : Steady f
  nil : f [] = none

/-- A reader that leaves blanks behind a text to the rest. -/
def Leaves (read : Text → Option Text) : Prop :=
  ∀ t b, blank b = true → read (t ++ b) = (read t).map (· ++ b)

/-- The same for a reader that also answers with what it has read. -/
def LeavesRest (read : Text → Option (α × Text)) : Prop :=
  ∀ t b, blank b = true → read (t ++ b) = (read t).map fun (a, rest) => (a, rest ++ b)

section Composition

variable {f g : Text → Option β} {read : Text → Option Text}

theorem steady_const (x : Option β) : Steady fun _ => x := fun _ _ _ => rfl

theorem Steady.orElse (hf : Steady f) (hg : Steady g) : Steady fun t => f t <|> g t := by
  intro t b hb
  simp only [hf t b hb, hg t b hb]

theorem Firm.orElse (hf : Firm f) (hg : Firm g) : Firm fun t => f t <|> g t := by
  refine ⟨hf.steady.orElse hg.steady, ?_⟩
  simp only [hf.nil, hg.nil]
  rfl

theorem Leaves.steady_bind (hread : Leaves read) (hf : Steady f) :
    Steady fun t => (read t).bind f := by
  intro t b hb
  simp only [hread t b hb]
  cases read t with
  | none => rfl
  | some rest => exact hf rest b hb

theorem LeavesRest.steady_bind {read : Text → Option (α × Text)} {f : α × Text → Option β}
    (hread : LeavesRest read) (hf : ∀ a, Steady fun rest => f (a, rest)) :
    Steady fun t => (read t).bind f := by
  intro t b hb
  simp only [hread t b hb]
  cases read t with
  | none => rfl
  | some pair => exact hf pair.1 pair.2 b hb

theorem Steady.trimLeft (hf : Steady f) : Steady fun t => f (trimLeft t) := by
  intro t b hb
  by_cases ht : blank t = true
  · have hboth : blank (t ++ b) = true := by rw [blank_append, ht, hb, Bool.and_true]
    have hnone : Text.trimLeft t = [] := trimLeft_eq_nil_iff.2 ht
    have hnone' : Text.trimLeft (t ++ b) = [] := trimLeft_eq_nil_iff.2 hboth
    simp only [hnone, hnone']
  · simp only [trimLeft_append_of_not_blank b (Bool.eq_false_iff.2 ht)]
    exact hf _ b hb

/-- What is read after blanks, of which there must be one, has to be there. -/
theorem Firm.someBlanks (hf : Firm f) : Firm fun t => (someBlanks? t).bind f := by
  refine ⟨?_, rfl⟩
  intro t b hb
  cases t with
  | nil =>
      cases b with
      | nil => rfl
      | cons c b =>
          rw [blank_cons, Bool.and_eq_true] at hb
          have hnone : Text.trimLeft b = [] := trimLeft_eq_nil_iff.2 hb.2
          simp only [List.nil_append, someBlanks?, hb.1, if_true, Option.bind_some, hnone, hf.nil,
            Option.bind_none]
  | cons c t =>
      simp only [List.cons_append, someBlanks?]
      split
      · exact hf.steady.trimLeft t b hb
      · rfl

end Composition

theorem ne_of_isBlank {c d : Char} (hc : isBlank c = true) (hd : isBlank d = false) : c ≠ d := by
  intro e
  rw [e, hd] at hc
  cases hc

theorem not_mem_of_blank {c : Char} {b : Text} (hb : blank b = true) (hc : isBlank c = false) :
    c ∉ b := fun hmem => ne_of_isBlank (isBlank_of_mem hb c hmem) hc rfl

theorem leaves_after {front : Text} (h : front.any isBlank = false) : Leaves (after? front) := by
  intro t b hb
  have hstop : ∀ c ∈ b.head?, c ∉ front := fun c hc hmem =>
    not_mem_of_blank hb (not_of_mem h hmem) (List.mem_of_mem_head? hc)
  rw [after?, after?, isPrefixOf_append hstop]
  split
  · next hprefix =>
      have hlength := (List.isPrefixOf_iff_prefix.1 hprefix).length_le
      rw [List.drop_append_of_le_length hlength, Option.map_some]
  · rfl

theorem after?_cons_of_isBlank {front : Text} (hne : front ≠ [])
    (hfront : front.any isBlank = false) {c : Char} (t : Text) (hc : isBlank c = true) :
    after? front (c :: t) = none := by
  obtain ⟨d, front, rfl⟩ := List.exists_cons_of_ne_nil hne
  have hd : isBlank d = false := not_of_mem hfront List.mem_cons_self
  exact after?_cons_of_ne (ne_of_isBlank hc hd).symm front t

theorem mem_of_char? {c : Char} {t u : Text} (h : char? c t = some u) : c ∈ t := by
  cases t with
  | nil => cases h
  | cons d t =>
      simp only [char?] at h
      split at h
      · next hd => exact eq_of_beq hd ▸ List.mem_cons_self
      · cases h

theorem leaves_char {c : Char} (h : isBlank c = false) : Leaves (char? c) := by
  intro t b hb
  cases t with
  | nil =>
      cases b with
      | nil => rfl
      | cons d b =>
          have hd : isBlank d = true := isBlank_of_mem hb d List.mem_cons_self
          rw [List.nil_append, char?, if_neg (by simpa using ne_of_isBlank hd h)]
          rfl
  | cons d t =>
      simp only [List.cons_append, char?]
      split <;> rfl

/-- Blanks behind a text do not go on a run of other characters. -/
theorem span_append_blank {p : Char → Bool} {b : Text} (hp : ∀ c, isBlank c = true → p c = false)
    (hb : blank b = true) (t : Text) : (t ++ b).span p = ((t.span p).1, (t.span p).2 ++ b) := by
  have hstop : b.takeWhile p = [] ∧ b.dropWhile p = b := by
    cases b with
    | nil => exact ⟨rfl, rfl⟩
    | cons c b =>
        have hc : ¬ p c = true := by simp [hp c (isBlank_of_mem hb c List.mem_cons_self)]
        exact ⟨List.takeWhile_cons_of_neg hc, List.dropWhile_cons_of_neg hc⟩
  simp only [List.span_eq_takeWhile_dropWhile]
  induction t with
  | nil => exact Prod.ext hstop.1 hstop.2
  | cons c t ih =>
      rw [Prod.mk.injEq] at ih ⊢
      by_cases hc : p c = true
      · simp only [List.cons_append, List.takeWhile_cons_of_pos hc, List.dropWhile_cons_of_pos hc,
          ih.1, ih.2, and_self]
      · simp only [List.cons_append, List.takeWhile_cons_of_neg hc, List.dropWhile_cons_of_neg hc,
          and_self]

theorem leavesRest_name {first further : Char → Bool}
    (hfirst : ∀ c, isBlank c = true → first c = false)
    (hfurther : ∀ c, isBlank c = true → further c = false) : LeavesRest (name? first further) := by
  intro t b hb
  cases t with
  | nil =>
      cases b with
      | nil => rfl
      | cons c b => simp [name?, hfirst c (isBlank_of_mem hb c List.mem_cons_self)]
  | cons c t =>
      simp only [List.cons_append, name?, span_append_blank hfurther hb t]
      split <;> rfl

theorem upTo?_cons (c d : Char) (t : Text) :
    upTo? c (d :: t) =
      if d = c then some ([], t) else (upTo? c t).map fun (before, rest) => (d :: before, rest) := by
  by_cases hd : d = c
  · have hstop : ¬ (d != c) = true := by simp [hd]
    rw [if_pos hd, upTo?, List.span_eq_takeWhile_dropWhile,
      List.takeWhile_cons_of_neg (p := fun e => e != c) hstop,
      List.dropWhile_cons_of_neg (p := fun e => e != c) hstop]
  · have hgo : (d != c) = true := bne_iff_ne.2 hd
    rw [if_neg hd, upTo?, upTo?, List.span_eq_takeWhile_dropWhile, List.span_eq_takeWhile_dropWhile,
      List.takeWhile_cons_of_pos (p := fun e => e != c) hgo,
      List.dropWhile_cons_of_pos (p := fun e => e != c) hgo]
    cases t.dropWhile (· != c) <;> rfl

theorem upTo?_of_not_mem {c : Char} {t : Text} (h : c ∉ t) : upTo? c t = none := by
  induction t with
  | nil => rfl
  | cons d t ih =>
      have hd : d ≠ c := fun e => h (e ▸ List.mem_cons_self)
      rw [upTo?_cons, if_neg hd, ih fun ht => h (List.mem_cons_of_mem d ht), Option.map_none]

theorem upTo?_append_cons {c : Char} {t : Text} (h : c ∉ t) (u : Text) :
    upTo? c (t ++ c :: u) = some (t, u) := by
  induction t with
  | nil => rw [List.nil_append, upTo?_cons, if_pos rfl]
  | cons d t ih =>
      have hd : d ≠ c := fun e => h (e ▸ List.mem_cons_self)
      rw [List.cons_append, upTo?_cons, if_neg hd, ih fun ht => h (List.mem_cons_of_mem d ht)]
      rfl

theorem upTo?_eq_some_iff {c : Char} {t a r : Text} :
    upTo? c t = some (a, r) ↔ c ∉ a ∧ t = a ++ c :: r := by
  constructor
  · intro h
    have hmem : c ∈ t := by
      by_contra hmem
      rw [upTo?_of_not_mem hmem] at h
      cases h
    obtain ⟨front, rest, rfl, hfront⟩ := List.eq_append_cons_of_mem hmem
    rw [upTo?_append_cons hfront] at h
    obtain ⟨rfl, rfl⟩ := Prod.mk.inj (Option.some.inj h)
    exact ⟨hfront, rfl⟩
  · rintro ⟨ha, rfl⟩
    exact upTo?_append_cons ha r

theorem leavesRest_upTo {c : Char} (hc : isBlank c = false) : LeavesRest (upTo? c) := by
  intro t b hb
  have hnone : upTo? c b = none := upTo?_of_not_mem (not_mem_of_blank hb hc)
  induction t with
  | nil => exact hnone
  | cons d t ih =>
      rw [List.cons_append, upTo?_cons, upTo?_cons, ih]
      split
      · rfl
      · rw [Option.map_map, Option.map_map]
        rfl

/-- A front without a character is read in front of it. -/
theorem exists_of_after? {front x y r : Text} {c : Char} (hfront : c ∉ front)
    (h : after? front (x ++ c :: y) = some r) : ∃ x', x' <:+ x ∧ r = x' ++ c :: y := by
  have hstop : ∀ d ∈ (c :: y).head?, d ∉ front := fun d hd => Option.some.inj hd ▸ hfront
  rw [after?, isPrefixOf_append hstop] at h
  split at h
  · next hprefix =>
      have hlength := (List.isPrefixOf_iff_prefix.1 hprefix).length_le
      rw [List.drop_append_of_le_length hlength, Option.some.injEq] at h
      exact ⟨x.drop front.length, List.drop_suffix _ _, h.symm⟩
  · cases h

/-- Blanks are read in front of a character that is none. -/
theorem exists_of_someBlanks? {x y r : Text} {c : Char} (hc : isBlank c = false)
    (h : someBlanks? (x ++ c :: y) = some r) : ∃ x', x' <:+ x ∧ r = x' ++ c :: y := by
  cases x with
  | nil => simp [someBlanks?, hc] at h
  | cons d x =>
      rw [List.cons_append, someBlanks?] at h
      split at h
      · rw [trimLeft_append_cons _ _ hc, Option.some.injEq] at h
        exact ⟨trimLeft x, (List.dropWhile_suffix _).trans (List.suffix_cons d x), h.symm⟩
      · cases h

/-! ### Recognisers -/

/-- A recogniser that looks at nothing in front of a place, recognises nothing at a blank, and to
which blanks behind the text say nothing. -/
structure Solid (r : Recogniser α) : Prop where
  alone : ∀ before t, r before t = r none t
  begins : ∀ c t, isBlank c = true → r none (c :: t) = none
  steady : Steady (r none)

namespace Solid

variable {r : Recogniser α}

theorem nil (h : Solid r) (before : Option Char) : r before [] = none := by
  rw [h.alone, ← h.steady [] [' '] rfl]
  exact h.begins ' ' [] rfl

theorem everyFrom_none (h : Solid r) (before : Option Char) (t : Text) :
    everyFrom r before t = everyFrom r none t := by
  cases t with
  | nil => rfl
  | cons c t => rw [everyFrom, everyFrom, h.alone]

theorem everyFrom_blank_append (h : Solid r) {a : Text} (ha : blank a = true) (t : Text) :
    everyFrom r none (a ++ t) = everyFrom r none t := by
  induction a with
  | nil => rfl
  | cons c a ih =>
      rw [blank_cons, Bool.and_eq_true] at ha
      rw [List.cons_append, everyFrom, h.begins c _ ha.1, h.everyFrom_none]
      exact ih ha.2

theorem everyFrom_append_blank (h : Solid r) {b : Text} (hb : blank b = true) (t : Text) :
    everyFrom r none (t ++ b) = everyFrom r none t := by
  induction t with
  | nil =>
      have hnone := h.everyFrom_blank_append hb []
      rwa [List.append_nil] at hnone
  | cons c t ih =>
      have hhere : r none (c :: (t ++ b)) = r none (c :: t) := h.steady (c :: t) b hb
      rw [List.cons_append, everyFrom, everyFrom, hhere, h.everyFrom_none, ih,
        h.everyFrom_none (some c) t]

/-- Trimming a text takes no recognised place away. -/
theorem everyFrom_trim (h : Solid r) (t : Text) :
    everyFrom r none (trim t) = everyFrom r none t := by
  obtain ⟨a, b, ha, hb, ht⟩ := exists_trim t
  calc everyFrom r none (trim t) = everyFrom r none (a ++ trim t ++ b) := by
        rw [h.everyFrom_append_blank hb, h.everyFrom_blank_append ha]
    _ = everyFrom r none t := by rw [← ht]

/-- **A search of a trimmed text answers what the first place of the text answers.** -/
theorem findValue_trim (h : Solid r) (t : Text) :
    findValue r (trim t) = (everyFrom r none t).head? := by
  rw [findValue, find, map_findFrom h.nil, h.everyFrom_trim]

end Solid
end Refinery.Text
