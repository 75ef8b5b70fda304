import Refinery.Proofs.Answer.Balance

/-!
What the bracket scanner passes over. Text in which every bracket has its own closer and every
literal is whole can be put in wherever the scan is outside of literals, and nothing changes in what
is owed. What can be put in like this is known exactly: besides such text, a literal may end with its
line, and inside of a bracket the closers of other brackets may stand.
-/

namespace Refinery.Brackets

def isBracket (c : Char) : Bool := (closer? c).isSome || isCloser c

/-- The characters that end a literal where no backslash stands in front of them. -/
def ends (quote c : Char) : Bool := c == quote || c == '\n' && endsWithLine quote

/-- What stands behind the quote of a literal: escapes of any character, and characters that do not
end it. -/
inductive Body (quote : Char) : Text → Prop where
  | nil : Body quote []
  | escape {c : Char} {t : Text} : Body quote t → Body quote ('\x5c' :: c :: t)
  | char {c : Char} {t : Text} :
      c ≠ '\x5c' → ends quote c = false → Body quote t → Body quote (c :: t)

/-- A whole literal: its quote, a body, and the same quote. -/
inductive Literal : Text → Prop where
  | quoted {quote : Char} {t : Text} :
      isQuote quote = true → Body quote t → Literal (quote :: (t ++ [quote]))

/-- Text made of whole literals, of characters that are neither quotes nor brackets, and of brackets
that are closed by their own closers around such text. -/
inductive Nested : Text → Prop where
  | nil : Nested []
  | char {c : Char} {t : Text} :
      isQuote c = false → isBracket c = false → Nested t → Nested (c :: t)
  | literal {l t : Text} : Literal l → Nested t → Nested (l ++ t)
  | pair {o d : Char} {u t : Text} :
      closer? o = some d → Nested u → Nested t → Nested (o :: (u ++ d :: t))

/-- Text that the scanner passes over: anywhere, or inside of a bracket with the closer `within`. Any
character that ends a literal will do as its end. Inside of a bracket the closers of other brackets
are read past; outside of one any closer could settle something. -/
inductive Passed : Option Char → Text → Prop where
  | nil {within : Option Char} : Passed within []
  | char {within : Option Char} {c : Char} {t : Text} :
      isQuote c = false → isBracket c = false → Passed within t → Passed within (c :: t)
  | literal {within : Option Char} {quote c : Char} {u t : Text} :
      isQuote quote = true → Body quote u → ends quote c = true → Passed within t →
      Passed within (quote :: (u ++ c :: t))
  | pair {within : Option Char} {o d : Char} {u t : Text} :
      closer? o = some d → Passed (some d) u → Passed within t → Passed within (o :: (u ++ d :: t))
  | stray {c d : Char} {t : Text} :
      isCloser c = true → c ≠ d → Passed (some d) t → Passed (some d) (c :: t)

/-- A text that can be put in wherever the scan is outside of literals, and nothing changes in what is
owed. -/
def Ignored (w : Text) : Prop :=
  ∀ a b : Text, (Scan.start.run a).mode = .code → owed (a ++ w ++ b) = owed (a ++ b)

theorem isBracket_eq_false_iff {c : Char} :
    isBracket c = false ↔ closer? c = none ∧ isCloser c = false := by
  rw [isBracket, Bool.or_eq_false_iff, Option.isSome_eq_false_iff, Option.isNone_iff_eq_none]

theorem isQuote_of_closer? {o d : Char} (h : closer? o = some d) : isQuote o = false := by
  unfold closer? at h
  split at h <;> first | rfl | cases h

theorem isCloser_iff {c : Char} : isCloser c = true ↔ c = '\x7d' ∨ c = ')' ∨ c = ']' := by
  simp only [isCloser, Bool.or_eq_true, beq_iff_eq, or_assoc]

theorem closer?_of_isCloser {c : Char} (h : isCloser c = true) : closer? c = none := by
  rcases isCloser_iff.1 h with rfl | rfl | rfl <;> rfl

theorem isQuote_of_isCloser {c : Char} (h : isCloser c = true) : isQuote c = false := by
  rcases isCloser_iff.1 h with rfl | rfl | rfl <;> rfl

theorem ends_quote (quote : Char) : ends quote quote = true := by
  rw [ends, beq_self_eq_true, Bool.true_or]

theorem ends_backslash {quote : Char} (h : isQuote quote = true) : ends quote '\x5c' = false := by
  simp only [isQuote, Bool.or_eq_true, beq_iff_eq] at h
  rcases h with (rfl | rfl) | rfl <;> rfl

namespace Scan

variable {owed : List Char} {quote c d : Char}

theorem step_quote (h : isQuote c = true) : step ⟨owed, .code⟩ c = ⟨owed, .literal c⟩ := if_pos h

theorem step_opener (h : closer? c = some d) : step ⟨owed, .code⟩ c = ⟨d :: owed, .code⟩ := by
  simp [step, isQuote_of_closer? h, h]

theorem step_char (hquote : isQuote c = false) (hbracket : isBracket c = false) :
    step ⟨owed, .code⟩ c = ⟨owed, .code⟩ := by
  obtain ⟨hopen, hclose⟩ := isBracket_eq_false_iff.1 hbracket
  simp [step, hquote, hopen, hclose]

theorem step_stray (h : isCloser c = true) (hne : owed.head? ≠ some c) :
    step ⟨owed, .code⟩ c = ⟨owed, .code⟩ := by
  simp [step, isQuote_of_isCloser h, closer?_of_isCloser h, hne]

theorem step_literal (hslash : c ≠ '\x5c') :
    step ⟨owed, .literal quote⟩ c = ⟨owed, if ends quote c then .code else .literal quote⟩ := by
  by_cases hquote : c = quote
  · simp [step, ends, hquote, hquote ▸ hslash]
  · by_cases hline : c = '\n' ∧ endsWithLine quote = true
    · simp [step, ends, hline]
    · simp [step, ends, hslash, hquote, hline]

end Scan

theorem Body.run {quote : Char} {t : Text} (h : Body quote t) (owed : List Char) :
    Scan.run ⟨owed, .literal quote⟩ t = ⟨owed, .literal quote⟩ := by
  induction h with
  | nil => rfl
  | escape _ ih => exact ih
  | char hslash hends _ ih => rw [Scan.run_cons, Scan.step_literal hslash, hends]; exact ih

/-- A literal is behind the scanner when its end is read. -/
theorem Scan.run_literal {quote c : Char} {u : Text} (hquote : isQuote quote = true)
    (hu : Body quote u) (hends : ends quote c = true) (owed : List Char) (t : Text) :
    Scan.run ⟨owed, .code⟩ (quote :: (u ++ c :: t)) = Scan.run ⟨owed, .code⟩ t := by
  have hslash : c ≠ '\x5c' := by
    rintro rfl
    rw [ends_backslash hquote] at hends
    cases hends
  rw [run_cons, step_quote hquote, run_append, hu.run, run_cons, step_literal hslash, if_pos hends]

/-- **Passed text leaves the scanner as it was**, with whatever is owed around it. -/
theorem Passed.run {within : Option Char} {w : Text} (h : Passed within w) (owed : List Char)
    (howed : ∀ d, within = some d → owed.head? = some d) :
    Scan.run ⟨owed, .code⟩ w = ⟨owed, .code⟩ := by
  induction h generalizing owed with
  | nil => rfl
  | char hquote hbracket _ ih =>
      rw [Scan.run_cons, Scan.step_char hquote hbracket, ih owed howed]
  | literal hquote hu hends _ ih => rw [Scan.run_literal hquote hu hends, ih owed howed]
  | @pair _ o d u t hopen _ _ ihu iht =>
      have hinside := ihu (d :: owed) fun _ h => h
      rw [Scan.run_cons, Scan.step_opener hopen, Scan.run_append, hinside, Scan.run_cons,
        Scan.step_closer (isCloser_of_closer? hopen), iht owed howed]
  | @stray c d t hclose hne _ ih =>
      have hother : owed.head? ≠ some c := by
        rw [howed d rfl]
        exact fun h => hne (Option.some.inj h).symm
      rw [Scan.run_cons, Scan.step_stray hclose hother, ih owed howed]

theorem Passed.run_anywhere {w : Text} (h : Passed none w) (owed : List Char) :
    Scan.run ⟨owed, .code⟩ w = ⟨owed, .code⟩ :=
  h.run owed fun _ hnone => absurd hnone (Option.some_ne_none _).symm

theorem Passed.run_append {w : Text} (h : Passed none w) (owed : List Char) (b : Text) :
    Scan.run ⟨owed, .code⟩ (w ++ b) = Scan.run ⟨owed, .code⟩ b := by
  rw [Scan.run_append, h.run_anywhere]

theorem Nested.passed {w : Text} (h : Nested w) (within : Option Char) : Passed within w := by
  induction h generalizing within with
  | nil => exact .nil
  | char hquote hbracket _ ih => exact .char hquote hbracket (ih within)
  | literal hl _ ih =>
      obtain ⟨hquote, hu⟩ := hl
      rw [List.cons_append, List.append_assoc, List.singleton_append]
      exact .literal hquote hu (ends_quote _) (ih within)
  | pair hopen _ _ ihu iht => exact .pair hopen (ihu _) (iht within)

/-- A text that leaves a literal or a bracket open, whatever is owed in front of it. -/
def LeavesOpen (t : Text) : Prop :=
  ∀ owed : List Char, (Scan.run ⟨owed, .code⟩ t).mode = .code →
    owed.length < (Scan.run ⟨owed, .code⟩ t).owed.length

/-- What stands behind text that is passed: nothing, a closer that is waited for, or something that is
left open. -/
inductive Stop (within : Option Char) : Text → Prop where
  | done : Stop within []
  | closer {c : Char} {t : Text} :
      isCloser c = true → (∀ d, within = some d → c = d) → Stop within (c :: t)
  | opened {t : Text} : LeavesOpen t → Stop within t

theorem leavesOpen_quote {quote : Char} {t : Text} (hquote : isQuote quote = true)
    (hopen : ∀ owed, (Scan.run ⟨owed, .literal quote⟩ t).mode ≠ .code) : LeavesOpen (quote :: t) := by
  intro owed hmode
  rw [Scan.run_cons, Scan.step_quote hquote] at hmode
  exact absurd hmode (hopen owed)

/-- A bracket stays open where nothing or something that is left open follows what is passed behind
it. -/
theorem leavesOpen_opener {o d : Char} {u t : Text} (hopen : closer? o = some d)
    (hu : Passed (some d) u) (ht : t = [] ∨ LeavesOpen t) : LeavesOpen (o :: (u ++ t)) := by
  intro owed hmode
  have hinside := hu.run (d :: owed) fun _ h => h
  rw [Scan.run_cons, Scan.step_opener hopen, Scan.run_append, hinside] at hmode ⊢
  rcases ht with rfl | ht
  · exact Nat.lt_succ_self _
  · exact (Nat.lt_succ_self _).trans (ht (d :: owed) hmode)

/-- A literal is read to its end, or the scanner stays inside of it. -/
theorem exists_body_append (quote : Char) (t : Text) :
    (∃ u c rest, t = u ++ c :: rest ∧ Body quote u ∧ ends quote c = true) ∨
      ∀ owed, (Scan.run ⟨owed, .literal quote⟩ t).mode ≠ .code := by
  induction hn : t.length using Nat.strong_induction_on generalizing t with
  | _ n ih =>
      subst hn
      cases t with
      | nil => exact Or.inr fun _ => Mode.noConfusion
      | cons c t =>
          by_cases hslash : c = '\x5c'
          · subst hslash
            cases t with
            | nil => exact Or.inr fun _ => Mode.noConfusion
            | cons e t =>
                have hshort : t.length < ('\x5c' :: e :: t).length := by
                  simp only [List.length_cons]
                  omega
                obtain ⟨u, f, rest, rfl, hu, hf⟩ | hopen := ih t.length hshort t rfl
                · exact Or.inl ⟨'\x5c' :: e :: u, f, rest, rfl, hu.escape, hf⟩
                · exact Or.inr hopen
          · cases hends : ends quote c with
            | true => exact Or.inl ⟨[], c, t, rfl, .nil, hends⟩
            | false =>
                obtain ⟨u, f, rest, rfl, hu, hf⟩ | hopen := ih t.length (Nat.lt_succ_self _) t rfl
                · exact Or.inl ⟨c :: u, f, rest, rfl, .char hslash hends hu, hf⟩
                · refine Or.inr fun owed => ?_
                  rw [Scan.run_cons, Scan.step_literal hslash, hends]
                  exact hopen owed

/-- A text is cut behind what is passed of it. -/
def Cut (within : Option Char) (w : Text) : Prop :=
  ∃ front rest, w = front ++ rest ∧ Passed within front ∧ Stop within rest

theorem Stop.cut {within : Option Char} {w : Text} (h : Stop within w) : Cut within w :=
  ⟨[], w, rfl, .nil, h⟩

theorem Cut.char {within : Option Char} {c : Char} {t : Text} (hquote : isQuote c = false)
    (hbracket : isBracket c = false) (h : Cut within t) : Cut within (c :: t) := by
  obtain ⟨front, rest, rfl, hfront, hrest⟩ := h
  exact ⟨c :: front, rest, rfl, .char hquote hbracket hfront, hrest⟩

theorem Cut.literal {within : Option Char} {quote c : Char} {u t : Text}
    (hquote : isQuote quote = true) (hu : Body quote u) (hends : ends quote c = true)
    (h : Cut within t) : Cut within (quote :: (u ++ c :: t)) := by
  obtain ⟨front, rest, rfl, hfront, hrest⟩ := h
  exact ⟨quote :: (u ++ c :: front), rest, by simp, .literal hquote hu hends hfront, hrest⟩

theorem Cut.pair {within : Option Char} {o d : Char} {u t : Text} (hopen : closer? o = some d)
    (hu : Passed (some d) u) (h : Cut within t) : Cut within (o :: (u ++ d :: t)) := by
  obtain ⟨front, rest, rfl, hfront, hrest⟩ := h
  exact ⟨o :: (u ++ d :: front), rest, by simp, .pair hopen hu hfront, hrest⟩

/-- A closer is waited for or read past. -/
theorem Cut.closer {within : Option Char} {c : Char} {t : Text} (hclose : isCloser c = true)
    (h : Cut within t) : Cut within (c :: t) := by
  by_cases hwaited : ∀ d, within = some d → c = d
  · exact (Stop.closer hclose hwaited).cut
  · push Not at hwaited
    obtain ⟨d, rfl, hne⟩ := hwaited
    obtain ⟨front, rest, rfl, hfront, hrest⟩ := h
    exact ⟨c :: front, rest, rfl, .stray hclose hne hfront, hrest⟩

/-- Every text has such a cut. The induction is on the length: behind a bracket that is closed the
reading goes on with what stands behind its closer. -/
theorem cut (within : Option Char) (w : Text) : Cut within w := by
  induction hn : w.length using Nat.strong_induction_on generalizing w within with
  | _ n ih =>
      subst hn
      cases w with
      | nil => exact Stop.done.cut
      | cons c t =>
          cases hquote : isQuote c with
          | true =>
              obtain ⟨u, e, t, rfl, hu, he⟩ | hopen := exists_body_append c t
              · exact .literal hquote hu he (ih t.length (by simp; omega) within t rfl)
              · exact (Stop.opened (leavesOpen_quote hquote hopen)).cut
          | false =>
              have htail : Cut within t := ih t.length (Nat.lt_succ_self _) within t rfl
              cases hopen : closer? c with
              | some d =>
                  obtain ⟨u, rest, rfl, hu, hrest⟩ :=
                    ih t.length (Nat.lt_succ_self _) (some d) t rfl
                  cases hrest with
                  | done => exact (Stop.opened (leavesOpen_opener hopen hu (Or.inl rfl))).cut
                  | @closer _ t _ hwaited =>
                      obtain rfl := hwaited d rfl
                      exact .pair hopen hu (ih t.length (by simp; omega) within t rfl)
                  | opened ht => exact (Stop.opened (leavesOpen_opener hopen hu (Or.inr ht))).cut
              | none =>
                  cases hclose : isCloser c with
                  | true => exact htail.closer hclose
                  | false => exact htail.char hquote (isBracket_eq_false_iff.2 ⟨hopen, hclose⟩)

/-- Whether a text is passed shows in four runs: where nothing is owed, and where one closer is. -/
theorem passed_iff_run {w : Text} : Passed none w ↔
    ∀ owing ∈ [[], ['\x7d'], [')'], [']']], Scan.run ⟨owing, .code⟩ w = ⟨owing, .code⟩ := by
  constructor
  · intro h owing _
    exact h.run_anywhere owing
  · intro h
    obtain ⟨front, rest, rfl, hfront, hrest⟩ := cut none w
    have hsame : ∀ owing ∈ [[], ['\x7d'], [')'], [']']],
        Scan.run ⟨owing, .code⟩ rest = ⟨owing, .code⟩ := by
      intro owing howing
      rw [← hfront.run_append, h owing howing]
    have hstart : Scan.run ⟨[], .code⟩ rest = ⟨[], .code⟩ := hsame [] List.mem_cons_self
    cases hrest with
    | done => rwa [List.append_nil]
    | @closer c t hclose _ =>
        -- The closer settles what is owed in one of the runs, and from there it goes on like the first.
        have hone : Scan.run ⟨[c], .code⟩ (c :: t) = ⟨[c], .code⟩ := by
          rcases isCloser_iff.1 hclose with rfl | rfl | rfl <;> exact hsame _ (by decide)
        have hnone : ([] : List Char).head? ≠ some c := (Option.some_ne_none c).symm
        rw [Scan.run_cons, Scan.step_stray hclose hnone] at hstart
        rw [Scan.run_cons, Scan.step_closer hclose, hstart] at hone
        cases hone
    | opened hopen =>
        have hmore := hopen []
        rw [hstart] at hmore
        exact absurd (hmore rfl) (Nat.lt_irrefl 0)

instance : DecidablePred (Passed none) := fun _ => decidable_of_iff _ passed_iff_run.symm

/-- What is ignored leaves the scanner as it was: an opening bracket behind it shows that the scanner
is outside of literals again. -/
theorem Ignored.run {w : Text} {owing : List Char} (h : Ignored w) (a : Text)
    (ha : Scan.start.run a = ⟨owing, .code⟩) :
    Scan.run ⟨owing, .code⟩ w = ⟨owing, .code⟩ := by
  have hsame : ∀ b, (Scan.run (Scan.run ⟨owing, .code⟩ w) b).owed =
      (Scan.run ⟨owing, .code⟩ b).owed := by
    intro b
    have hb := h a b (by rw [ha])
    rwa [owed, owed, Scan.run_append, Scan.run_append, Scan.run_append, ha] at hb
  have howed : (Scan.run ⟨owing, .code⟩ w).owed = owing := hsame []
  have hmode : (Scan.run ⟨owing, .code⟩ w).mode = .code := by
    by_contra hmode
    have hopened : ((Scan.run ⟨owing, .code⟩ w).step '(').owed = ')' :: owing := hsame ['(']
    rw [Scan.owed_step_of_mode_ne hmode, howed] at hopened
    exact List.cons_ne_self _ _ hopened.symm
  exact congrArg₂ Scan.mk howed hmode

/-- **What can be put in is what the scanner passes over.** -/
theorem ignored_iff {w : Text} : Ignored w ↔ Passed none w := by
  constructor
  · intro h
    refine passed_iff_run.2 fun owing howing => ?_
    simp only [List.mem_cons, List.not_mem_nil, or_false] at howing
    rcases howing with rfl | rfl | rfl | rfl
    · exact h.run [] rfl
    · exact h.run ['\x7b'] rfl
    · exact h.run ['('] rfl
    · exact h.run ['['] rfl
  · intro h a b ha
    have hstate : Scan.start.run a = ⟨owed a, .code⟩ := by rw [← ha]; rfl
    rw [owed, owed, List.append_assoc, Scan.run_append, Scan.run_append Scan.start a b, hstate,
      h.run_append]

instance : DecidablePred Ignored := fun _ => decidable_of_iff _ ignored_iff.symm

theorem Literal.nested {w : Text} (h : Literal w) : Nested w := by
  have hw : Nested (w ++ []) := .literal h .nil
  rwa [List.append_nil] at hw

/-- **The scanner ignores what is closed.** A whole literal, or text with its brackets nested, changes
nothing in what is owed, wherever it is put in outside of literals. All that can be put in like this
is what the scanner passes over. -/
theorem ignored_exact (w : Text) :
    (Literal w ∨ Nested w → Ignored w) ∧ (Ignored w ↔ Passed none w) := by
  refine ⟨?_, ignored_iff⟩
  rintro (h | h)
  · exact ignored_iff.2 (h.nested.passed none)
  · exact ignored_iff.2 (h.passed none)

/-- A call with brackets in its literals, behind closers that settle nothing. -/
theorem ignored_exact_of_call :
    let a : Text := "y) = z[(]".toList
    let quoted : Text := "\x22\x5c\x22)\x22".toList
    let call : Text := "f(\x22\x5c\x22)\x22, [\x60(\n\x60])".toList
    (Scan.start.run a).mode = .code ∧ owed (a ++ ")".toList) = [']'] ∧
      Literal quoted ∧ owed (a ++ quoted ++ ")".toList) = [']'] ∧
      Nested call ∧ owed (a ++ call ++ ")".toList) = [']'] := by
  intro a quoted call
  have ha : (Scan.start.run a).mode = .code := by decide
  have howed : owed (a ++ ")".toList) = [']'] := by decide
  have hquoted : Literal quoted := .quoted rfl (.escape (.char (by decide) (by decide) .nil))
  have htemplate : Literal "\x60(\n\x60".toList :=
    .quoted rfl (.char (by decide) (by decide) (.char (by decide) (by decide) .nil))
  have hlist : Nested "[\x60(\n\x60]".toList :=
    @Nested.pair '[' ']' "\x60(\n\x60".toList [] rfl htemplate.nested .nil
  have harguments : Nested (quoted ++ ", [\x60(\n\x60]".toList) :=
    .literal hquoted (.char rfl rfl (.char rfl rfl hlist))
  have hcall : Nested call :=
    .char rfl rfl (@Nested.pair '(' ')' (quoted ++ ", [\x60(\n\x60]".toList) [] rfl harguments .nil)
  exact ⟨ha, howed, hquoted, ((ignored_exact quoted).1 (Or.inl hquoted) a _ ha).trans howed, hcall,
    ((ignored_exact call).1 (Or.inr hcall) a _ ha).trans howed⟩

/-! Closers of other brackets are read past inside of a bracket; a closer alone is not. -/

example : Ignored "(]x)".toList := by decide

example : ¬ Ignored ")(".toList := by decide

end Refinery.Brackets
