import Refinery.Proofs.Answer.Echo

/-!
When repaired code owes nothing. The closing brackets that are written are read as brackets where
the newline in front of them leaves the scanner outside of literals. A template literal that was left
open takes them in, and so does a literal whose last character is a backslash; the code is accepted
all the same.
-/

namespace Refinery

namespace Brackets

namespace Mode

/-- The quote that a literal began with. -/
def quote? : Mode → Option Char
  | .code => none
  | .literal quote => some quote
  | .escaped quote => some quote

/-- Whether a newline leaves the scanner outside of literals. After a backslash it ends no literal. -/
def endsAtNewline : Mode → Bool
  | .code => true
  | .literal quote => endsWithLine quote
  | .escaped _ => false

end Mode

namespace Scan

variable {s : Scan} {c : Char} {t : Text}

@[simp] theorem run_nil (s : Scan) : s.run [] = s := rfl

@[simp] theorem run_cons (s : Scan) (c : Char) (t : Text) : s.run (c :: t) = (s.step c).run t := rfl

theorem run_append (s : Scan) (t u : Text) : s.run (t ++ u) = (s.run t).run u := List.foldl_append

/-- A literal begins with a quote. -/
def Quoted (s : Scan) : Prop := ∀ q, s.mode.quote? = some q → isQuote q = true

theorem Quoted.step (h : s.Quoted) (c : Char) : (s.step c).Quoted := by
  unfold Quoted Scan.step
  cases hmode : s.mode with
  | code =>
      simp only
      split
      · next hquote =>
          intro q hq
          cases hq
          exact hquote
      · split
        · nofun
        · split_ifs
          · nofun
          · exact h
  | literal q =>
      have hq : isQuote q = true := h q (by rw [hmode]; rfl)
      simp only
      split_ifs
      · intro _ hq'
        cases hq'
        exact hq
      · nofun
      · nofun
      · exact h
  | escaped q =>
      intro _ hq'
      cases hq'
      exact h q (by rw [hmode]; rfl)

theorem Quoted.run (h : s.Quoted) (t : Text) : (s.run t).Quoted := by
  induction t generalizing s with
  | nil => exact h
  | cons c t ih => exact ih (h.step c)

theorem quoted_start : start.Quoted := nofun

/-- A newline ends what it can end, and nothing else. -/
theorem Quoted.mode_step_newline_iff (h : s.Quoted) :
    (s.step '\n').mode = .code ↔ s.mode.endsAtNewline = true := by
  unfold Scan.step
  cases hmode : s.mode with
  | code => simp [Mode.endsAtNewline, isQuote, closer?, isCloser, hmode]
  | literal q =>
      have hne : ('\n' == q) = false := by
        refine beq_eq_false_iff_ne.2 fun hq => ?_
        have hquote := h q (by rw [hmode]; rfl)
        rw [← hq] at hquote
        exact absurd hquote (by decide)
      have hslash : ('\n' == '\x5c') = false := by decide
      cases hline : endsWithLine q <;> simp [Mode.endsAtNewline, hne, hslash, hline, hmode]
  | escaped q => simp [Mode.endsAtNewline]

/-- A newline ends what is open unless it is a template literal or stands behind a backslash. -/
theorem Quoted.endsAtNewline_iff (h : s.Quoted) : s.mode.endsAtNewline = true ↔
    s.mode ≠ .literal '\x60' ∧ ∀ q, s.mode ≠ .escaped q := by
  cases hmode : s.mode with
  | code => exact iff_of_true rfl ⟨nofun, nofun⟩
  | literal q =>
      have hquote : isQuote q = true := h q (by rw [hmode]; rfl)
      have hq : endsWithLine q = true ↔ q ≠ '\x60' := by
        simp only [isQuote, Bool.or_eq_true, beq_iff_eq] at hquote
        rcases hquote with (rfl | rfl) | rfl <;> decide
      rw [Mode.endsAtNewline, hq]
      constructor
      · intro hne
        exact ⟨fun heq => hne (Mode.literal.inj heq), nofun⟩
      · rintro ⟨hne, -⟩ rfl
        exact hne rfl
  | escaped q => exact iff_of_false Bool.false_ne_true fun hnone => hnone.2 q rfl

theorem owed_step_of_mode_ne (h : s.mode ≠ .code) (c : Char) : (s.step c).owed = s.owed := by
  unfold step
  cases hmode : s.mode with
  | code => exact absurd hmode h
  | literal q =>
      simp only
      split_ifs <;> rfl
  | escaped q => rfl

/-- Only brackets count. -/
theorem owed_step_of_not_bracket (hopen : closer? c = none) (hclose : isCloser c = false) :
    (s.step c).owed = s.owed := by
  by_cases hmode : s.mode = .code
  · simp only [step, hmode, hopen, hclose]
    split_ifs <;> first | rfl | contradiction
  · exact owed_step_of_mode_ne hmode c

theorem owed_step_newline (s : Scan) : (s.step '\n').owed = s.owed :=
  owed_step_of_not_bracket rfl rfl

theorem owed_step_of_isBlank (h : Text.isBlank c = true) : (s.step c).owed = s.owed := by
  have hne : ∀ d : Char, Text.isBlank d = false → c ≠ d := by
    intro d hd hcd
    rw [hcd, hd] at h
    cases h
  apply owed_step_of_not_bracket
  · unfold closer?
    split
    · exact absurd rfl (hne _ (by decide))
    · exact absurd rfl (hne _ (by decide))
    · exact absurd rfl (hne _ (by decide))
    · rfl
  · simp only [isCloser, Bool.or_eq_false_iff, beq_eq_false_iff_ne]
    exact ⟨⟨hne _ (by decide), hne _ (by decide)⟩, hne _ (by decide)⟩

theorem owed_run_blank (h : Text.blank t = true) : (s.run t).owed = s.owed := by
  induction t generalizing s with
  | nil => rfl
  | cons c t ih =>
      rw [Text.blank_cons, Bool.and_eq_true] at h
      rw [run_cons, ih h.2, owed_step_of_isBlank h.1]

/-- A closer is read as what it is outside of literals. -/
theorem step_closer {owed : List Char} (h : isCloser c = true) :
    step ⟨c :: owed, .code⟩ c = ⟨owed, .code⟩ := by
  simp only [isCloser, Bool.or_eq_true, beq_iff_eq] at h
  rcases h with (rfl | rfl) | rfl <;> rfl

/-- One closing bracket settles one owed bracket at most. -/
theorem length_owed_le_step (s : Scan) (c : Char) :
    s.owed.length ≤ (s.step c).owed.length + if isCloser c then 1 else 0 := by
  by_cases hmode : s.mode = .code
  · simp only [step, hmode]
    split
    · exact Nat.le_add_right _ _
    · cases closer? c with
      | some d => exact Nat.le_add_right_of_le (Nat.le_succ _)
      | none =>
          cases hclose : isCloser c with
          | false => simp
          | true =>
              simp only [Bool.true_and, if_true]
              split
              · simp only [List.length_tail]
                omega
              · exact Nat.le_succ _
  · rw [owed_step_of_mode_ne hmode]
    exact Nat.le_add_right _ _

theorem length_owed_le_run (s : Scan) (t : Text) :
    s.owed.length ≤ (s.run t).owed.length + t.countP isCloser := by
  induction t generalizing s with
  | nil => exact Nat.le_add_right _ _
  | cons c t ih =>
      have hstep := length_owed_le_step s c
      have hrest := ih (s.step c)
      rw [run_cons, List.countP_cons]
      omega

end Scan

theorem closing_cons_cons (c d : Char) (cs : List Char) :
    closing (c :: d :: cs) = c :: '\n' :: closing (d :: cs) := rfl

theorem newline_cons_closing {cs : List Char} (h : cs ≠ []) :
    '\n' :: closing cs = cs.flatMap fun c => ['\n', c] := by
  induction cs with
  | nil => exact absurd rfl h
  | cons c cs ih =>
      cases cs with
      | nil => rfl
      | cons d cs =>
          rw [closing_cons_cons, ih (List.cons_ne_nil d cs), List.flatMap_cons]
          rfl

theorem countP_closing {cs : List Char} (h : ∀ c ∈ cs, isCloser c = true) :
    (closing cs).countP isCloser = cs.length := by
  induction cs with
  | nil => rfl
  | cons c cs ih =>
      have hc := h c List.mem_cons_self
      have hcs := ih fun d hd => h d (List.mem_cons_of_mem c hd)
      cases cs with
      | nil => simp [closing, Text.unlines, Text.join, hc]
      | cons d cs =>
          rw [closing_cons_cons, List.countP_cons_of_pos hc, List.countP_cons_of_neg (by decide), hcs]
          rfl

theorem run_closing {cs : List Char} (h : ∀ c ∈ cs, isCloser c = true) :
    Scan.run ⟨cs, .code⟩ (closing cs) = ⟨[], .code⟩ := by
  induction cs with
  | nil => rfl
  | cons c cs ih =>
      have hc := h c List.mem_cons_self
      have hcs := ih fun d hd => h d (List.mem_cons_of_mem c hd)
      cases cs with
      | nil => exact Scan.step_closer hc
      | cons d cs =>
          rw [closing_cons_cons, Scan.run_cons, Scan.step_closer hc]
          exact hcs

/-- Closers behind a newline settle what is owed exactly where the newline leaves the scanner outside
of literals. Inside of one the first of them is lost, and each of the others settles one at most. -/
theorem Scan.Quoted.owed_run_closing_iff {s : Scan} (h : s.Quoted) (howed : s.owed ≠ [])
    (hclosers : ∀ c ∈ s.owed, isCloser c = true) :
    (s.run ('\n' :: closing s.owed)).owed = [] ↔ s.mode.endsAtNewline = true := by
  have hsame : (s.step '\n').owed = s.owed := Scan.owed_step_newline s
  rw [← h.mode_step_newline_iff, Scan.run_cons]
  constructor
  · intro hnone
    by_contra hmode
    obtain ⟨c, cs, hcs⟩ := List.exists_cons_of_ne_nil howed
    have hc : isCloser c = true := hclosers c (hcs ▸ List.mem_cons_self)
    obtain ⟨rest, hrest⟩ : ∃ rest, closing s.owed = c :: rest := by
      rw [hcs]
      cases cs with
      | nil => exact ⟨[], rfl⟩
      | cons d cs => exact ⟨_, closing_cons_cons c d cs⟩
    have hcount : rest.countP isCloser = cs.length := by
      have hall := countP_closing hclosers
      rw [hrest, List.countP_cons_of_pos hc, hcs, List.length_cons] at hall
      omega
    have hlength := Scan.length_owed_le_run ((s.step '\n').step c) rest
    rw [Scan.owed_step_of_mode_ne hmode, hsame, hcount, hcs, List.length_cons] at hlength
    rw [hrest, Scan.run_cons] at hnone
    rw [hnone, List.length_nil] at hlength
    omega
  · intro hmode
    have hstate : s.step '\n' = ⟨s.owed, .code⟩ := by
      rw [← hsame, ← hmode]
    rw [hstate, run_closing hclosers]

theorem owed_trimRight (code : Text) : owed (Text.trimRight code) = owed code := by
  obtain ⟨b, hb, hcode⟩ := Text.exists_trimRight code
  have hrun : owed (Text.trimRight code ++ b) = owed (Text.trimRight code) := by
    rw [owed, Scan.run_append, Scan.owed_run_blank hb, owed]
  rw [← hrun, ← hcode]

/-- **Repaired code owes nothing exactly where the code owed nothing, or a newline behind it leaves
the scanner outside of literals.** -/
theorem owed_repaired_eq_nil_iff (code : Text) : owed (repaired code) = [] ↔
    owed code = [] ∨ (Scan.start.run (Text.trimRight code)).mode.endsAtNewline = true := by
  by_cases hnone : owed code = []
  · rw [repaired_of_owed_eq_nil hnone]
    exact iff_of_true hnone (Or.inl hnone)
  · have hsame : (Scan.start.run (Text.trimRight code)).owed = owed code := owed_trimRight code
    have hiff := (Scan.quoted_start.run (Text.trimRight code)).owed_run_closing_iff
      (hsame ▸ hnone) (hsame ▸ isCloser_of_mem_owed)
    rw [repaired_of_owed_ne_nil hnone, owed, Scan.run_append, ← hsame, hiff, hsame]
    exact (or_iff_right hnone).symm

theorem repair?_eq_none_iff {code : Text} : repair? code = none ↔ owed code = [] := by
  constructor
  · intro hnone
    by_contra hne
    rw [repair?_of_owed_ne_nil hne] at hnone
    cases hnone
  · exact repair?_of_owed_eq_nil

/-- **Repair is exact.** Code that owes nothing is left alone. Any other code loses the blanks at its
end and gets the closers that it owes, innermost first and each on a line of its own. It then owes
nothing exactly where the scanner, behind the code without the blanks at its end, stands neither in a
template literal nor behind a backslash in any literal; and repaired code that owes nothing is what
a second repair leaves alone. -/
theorem repair_exact (code : Text) :
    (owed code = [] → repair? code = none ∧ repaired code = code) ∧
    (owed code ≠ [] →
      let r := Text.trimRight code ++ (owed code).flatMap fun c => ['\n', c]
      let mode := (Scan.start.run (Text.trimRight code)).mode
      repair? code = some r ∧ repaired code = r ∧
      (owed r = [] ↔ mode ≠ .literal '\x60' ∧ ∀ q, mode ≠ .escaped q) ∧
      (repair? r = none ∧ repaired r = r ↔ owed r = [])) := by
  constructor
  · intro hnone
    exact ⟨repair?_of_owed_eq_nil hnone, repaired_of_owed_eq_nil hnone⟩
  · intro howed r mode
    have hrepair : repair? code = some r := by
      rw [repair?_of_owed_ne_nil howed, newline_cons_closing howed]
    have hrepaired : repaired code = r := by rw [repaired, hrepair, Option.getD_some]
    refine ⟨hrepair, hrepaired, ?_, ?_⟩
    · rw [← hrepaired, owed_repaired_eq_nil_iff, or_iff_right howed]
      exact (Scan.quoted_start.run (Text.trimRight code)).endsAtNewline_iff
    · rw [repair?_eq_none_iff]
      exact and_iff_left_of_imp repaired_of_owed_eq_nil

/-- Code that stops in a quoted string and code that stops in a template literal. -/
theorem repair_exact_of_open_literals :
    let quoted : Text := "f([\n  'a \n".toList
    let template : Text := "f([\n  `a".toList
    owed quoted ≠ [] ∧ repaired quoted = "f([\n  'a\n]\n)".toList ∧ owed (repaired quoted) = [] ∧
      owed template ≠ [] ∧ repaired template = "f([\n  `a\n]\n)".toList ∧
      owed (repaired template) ≠ [] ∧
      owed "f([])".toList = [] ∧ repaired "f([])".toList = "f([])".toList := by
  intro quoted template
  have hquoted : owed quoted ≠ [] := by decide
  have htemplate : owed template ≠ [] := by decide
  obtain ⟨-, hquotedText, hquotedWhole, -⟩ := (repair_exact quoted).2 hquoted
  obtain ⟨-, htemplateText, htemplateWhole, -⟩ := (repair_exact template).2 htemplate
  have hclosed : owed (repaired quoted) = [] := by
    have hmode : (Scan.start.run (Text.trimRight quoted)).mode = .literal '\x27' := by decide
    rw [hquotedText, hquotedWhole, hmode]
    exact ⟨by decide, nofun⟩
  have hopen : owed (repaired template) ≠ [] := by
    have hmode : (Scan.start.run (Text.trimRight template)).mode = .literal '\x60' := by decide
    rw [htemplateText, Ne, htemplateWhole, hmode]
    exact fun hwhole => hwhole.1 rfl
  exact ⟨hquoted, hquotedText.trans (by decide), hclosed, htemplate, htemplateText.trans (by decide),
    hopen, by decide, ((repair_exact "f([])".toList).1 (by decide)).2⟩

end Brackets

namespace Extract

theorem trimRight_of_present? {t code : Text} (h : present? t = some code) :
    Text.trimRight code = code := by
  cases hblank : Text.blank t with
  | true =>
      rw [present?_of_blank hblank] at h
      cases h
  | false =>
      rw [present?_of_not_blank hblank, Option.some.injEq] at h
      rw [← h, Text.trimRight_trim]

/-- Code that was found has no blanks at its end. -/
theorem trimRight_of_code? {raw code : Text} (h : code? raw = some code) :
    Text.trimRight code = code := by
  unfold code? at h
  split at h
  · cases h
  · simp only at h
    split at h
    · exact trimRight_of_present? h
    · split at h
      · next body hbody =>
          cases h
          obtain ⟨t, -, ht⟩ := Option.bind_eq_some_iff.1 hbody
          exact trimRight_of_present? ht
      · split at h
        · exact trimRight_of_present? h
        · exact trimRight_of_present? h

end Extract

namespace Verdict

/-- **What an accepted output leaves open**: nothing, unless the code found in it owes a bracket and
ends inside of a literal that the next newline does not end. -/
theorem owed_outcome_eq_nil_iff {raw source : Text} {r : Analysis} {given : Option Text}
    {limits : Thresholds} {o : Outcome} (h : validate raw source r given limits = .ok o)
    (hparsed : o.parsed = true) :
    ∃ found, Extract.code? raw = some found ∧
      (Brackets.owed o.code = [] ↔
        Brackets.owed found = [] ∨
          (Brackets.Scan.start.run found).mode.endsAtNewline = true) := by
  obtain ⟨found, hraw, hcode, -⟩ := (passes_of_validate h hparsed).1.found
  have hiff := Brackets.owed_repaired_eq_nil_iff found
  rw [Extract.trimRight_of_code? hraw, ← hcode] at hiff
  exact ⟨found, hraw, hiff⟩

/-- An answer that stops inside of a quoted string is accepted with the bracket that it owes. -/
theorem owed_outcome_of_open_string :
    let source : Text := "a = 1\nb = 2\nf('c')".toList
    let raw : Text := "```\na = 1\nb = 2\nf('c".toList
    let r := Report.ofText source "javascript".toList Chunk.defaultSize
    ∃ o, validate raw source r none {} = .ok o ∧ o.parsed = true ∧
      Brackets.owed "a = 1\nb = 2\nf('c".toList = [')'] ∧ Brackets.owed o.code = [] := by
  intro source raw r
  have hseen : (validate raw source r none {}).toOption.map (·.parsed) = some true := by
    decide +kernel
  obtain ⟨o, ho, hparsed⟩ := exists_of_toOption_map hseen
  obtain ⟨found, hraw, hiff⟩ := owed_outcome_eq_nil_iff ho hparsed
  have hfound : Extract.code? raw = some "a = 1\nb = 2\nf('c".toList := by decide
  obtain rfl : "a = 1\nb = 2\nf('c".toList = found := by simpa [hfound] using hraw
  exact ⟨o, ho, hparsed, by decide, hiff.2 (Or.inr (by decide))⟩

/-- An answer that stops inside of a template literal is accepted though its bracket stays open. -/
theorem owed_outcome_of_open_template :
    let source : Text := "a = 1\nb = 2\nf(`c`)".toList
    let raw : Text := "```\na = 1\nb = 2\nf(`c".toList
    let r := Report.ofText source "auto".toList Chunk.defaultSize
    ∃ o, validate raw source r none {} = .ok o ∧ o.parsed = true ∧
      o.code = "a = 1\nb = 2\nf(`c\n)".toList ∧ Brackets.owed o.code = [')'] := by
  intro source raw r
  have hseen : (validate raw source r none {}).toOption.map
      (fun o => (o.parsed, o.code, Brackets.owed o.code)) =
        some (true, "a = 1\nb = 2\nf(`c\n)".toList, [')']) := by
    decide +kernel
  obtain ⟨o, ho, heq⟩ := exists_of_toOption_map hseen
  exact ⟨o, ho, by simpa only [Prod.mk.injEq] using heq⟩

end Verdict
end Refinery
