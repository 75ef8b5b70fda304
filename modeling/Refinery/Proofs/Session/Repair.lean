import Refinery.Proofs.Answer.Verdict
import Refinery.Proofs.Session.Composition

/-!
What a delivered outcome says of repaired output. A text that is asked for as a whole keeps the low
confidence that repaired output gets; its warning is that of the second ladder where this one is
delivered. Of chunks that were repaired the outcome of a chunked text says nothing: its confidence is
the score of a new report on the joined text, and its warning counts the chunks that were kept.
-/

namespace Refinery

namespace Verdict

/-- The code that is found in an output owes closing brackets, and this is what it is with them. -/
def Mends (raw mended : Text) : Prop :=
  ∃ found, Extract.code? raw = some found ∧ Brackets.repair? found = some mended

theorem Mends.outcome {raw source mended : Text} {r : Report} {given : Option Text}
    {limits : Thresholds} (h : Mends raw mended)
    (hparsed : (outcome raw source r given limits).parsed = true) :
    (outcome raw source r given limits).code = mended ∧
      (outcome raw source r given limits).confidence ≤ repairedCap ∧
      (outcome raw source r given limits).warning = some repairedWarning := by
  have hvalidate := validate_report raw source r given limits
  obtain ⟨found, hfound, hrepair⟩ := h
  have howed : Brackets.owed found ≠ [] := by
    intro hnone
    rw [Brackets.repair?_of_owed_eq_nil hnone] at hrepair
    cases hrepair
  obtain ⟨found', hfound', hcode, -⟩ := (passes_of_validate hvalidate hparsed).1.found
  obtain rfl : found = found' := Option.some.inj (hfound.symm.trans hfound')
  refine ⟨?_, capped_of_validate hvalidate hparsed hfound howed⟩
  rw [hcode, Brackets.repaired, hrepair, Option.getD_some]

/-- Only an accepted output changes the text. -/
theorem parsed_of_noChange {raw source : Text} {r : Report} {given : Option Text}
    {limits : Thresholds} (h : (outcome raw source r given limits).noChange = false) :
    (outcome raw source r given limits).parsed = true := by
  by_contra hparsed
  rw [(kept_outcome (Bool.eq_false_iff.2 hparsed)).2] at h
  cases h

end Verdict

namespace Run

variable {task start r r' : Run} {xs ys : List Signal} {x : Signal} {job : Job} {output : Text}

/-- In the course of these signals a job came to this output. -/
def Gave (start : Run) (xs : List Signal) (job : Job) (output : Text) : Prop :=
  ∃ ys, ys <+: xs ∧ (start.after ys).control = .idling job (.ok output)

theorem gave_of_control (h : (start.after xs).control = .idling job (.ok output)) :
    start.Gave xs job output := ⟨xs, List.prefix_refl xs, h⟩

theorem Gave.mono (h : start.Gave xs job output) (hxs : xs <+: ys) : start.Gave ys job output := by
  obtain ⟨zs, hzs, hcontrol⟩ := h
  exact ⟨zs, hzs.trans hxs, hcontrol⟩

/-- How far a run over a text of one chunk is, with the outputs that brought it there. -/
inductive Sole (task start : Run) (xs : List Signal) : Place → Prop
  | first : Sole task start xs (.on (.whole none))
  | again {output : Text} (hfirst : start.Gave xs (.whole none) output) :
      Sole task start xs (.on (.whole (some (task.judge output))))
  | fails : Sole task start xs (.ended none)
  | takesFirst {output : Text} (hfirst : start.Gave xs (.whole none) output) :
      Sole task start xs (.ended (some (task.judge output)))
  | takesSecond {first output : Text} (hfirst : start.Gave xs (.whole none) first)
      (hsecond : start.Gave xs (.whole (some (task.judge first))) output)
      (hchange : (task.judge output).noChange = false) :
      Sole task start xs (.ended (some { task.judge output with warning := some retryWarning }))

theorem Sole.mono {p : Place} (h : Sole task start xs p) (hxs : xs <+: ys) :
    Sole task start ys p := by
  cases h with
  | first => exact .first
  | again hfirst => exact .again (hfirst.mono hxs)
  | fails => exact .fails
  | takesFirst hfirst => exact .takesFirst (hfirst.mono hxs)
  | takesSecond hfirst hsecond hchange =>
      exact .takesSecond (hfirst.mono hxs) (hsecond.mono hxs) hchange

theorem place_enter (r : Run) (job : Job) (e : Errand) (level : Int) (options : SamplingOptions) :
    (r.enter job e level options).control.place = .on job := place_withLadder r job _

theorem Sole.succeed {o : Outcome} (h : Sole task start xs (.ended (some o))) (r : Run) :
    Sole task start xs (r.succeed o).control.place := by
  rcases place_succeed r o with hplace | hplace
  · rw [hplace]
    exact .fails
  · rw [hplace]
    exact h

theorem sole_turn (h : Sole task start xs r.control.place) (hr : start.after xs = r)
    (hsame : SameTask task r) (hturn : Turn r r') : Sole task start xs r'.control.place := by
  subst hr
  cases hturn with
  | breaks _ _ => exact .fails
  | stops _ _ => exact .fails
  | takesFirst hcontrol _ =>
      rw [hsame.judge]
      exact (Sole.takesFirst (gave_of_control hcontrol)).succeed _
  | asksAgain hcontrol _ =>
      rw [place_enter, hsame.judge]
      exact .again (gave_of_control hcontrol)
  | @takesSecond r₁ first result hcontrol _ o ho =>
      have hgave := hcontrol ▸ h
      cases hgave with
      | again hfirst =>
          rcases ho with rfl | ⟨output, rfl, hchange, rfl⟩
          · exact (Sole.takesFirst hfirst).succeed _
          · rw [hsame.judge] at hchange ⊢
            exact (Sole.takesSecond hfirst (gave_of_control hcontrol) hchange).succeed _
  | pauses hcontrol _ _ =>
      rw [hcontrol] at h
      cases h
  | joins hcontrol _ _ _ _ =>
      rw [hcontrol] at h
      cases h
  | turnsBack _ _ => exact .fails
  | asksPart hcontrol _ =>
      rw [hcontrol] at h
      cases h

/-- **One step preserves it.** -/
theorem sole_takes (h : Sole task start xs r.control.place) (hr : start.after xs = r)
    (hsame : SameTask task r) (htakes : Takes r x r') :
    Sole task start (xs ++ [x]) r'.control.place := by
  refine Sole.mono ?_ (List.prefix_append xs [x])
  cases htakes with
  | cancels => exact h
  | ticks _ _ _ => exact h
  | climbs hcontrol _ _ _ _ =>
      rw [hcontrol] at h
      rw [place_withLadder]
      exact h
  | turns hturn => exact sole_turn h hr hsame hturn
  | waits _ => exact h

theorem sole_begin (settings : Settings) (name : Text) (request : Request) (host : Host)
    (hfew : (Chunk.split request.code settings.chunkSize).length < 2) :
    Sole (opened settings name request host) (begin settings name request host) []
      (begin settings name request host).control.place := by
  have hbegins := begins_begin settings name request host
  generalize hstart : begin settings name request host = start at hbegins ⊢
  cases hbegins with
  | turnsBack _ _ => exact .fails
  | asksPart hchunks _ _ =>
      have hlength := congrArg List.length hchunks
      rw [Chunk.length_ofTexts] at hlength
      exact absurd (hlength ▸ hfew) (by simp)
  | asksWhole _ _ =>
      rw [place_enter]
      exact .first

theorem sole_after_begin (settings : Settings) (name : Text) (request : Request) (host : Host)
    (hfew : (Chunk.split request.code settings.chunkSize).length < 2) (xs : List Signal) :
    Sole (opened settings name request host) (begin settings name request host) xs
      ((begin settings name request host).after xs).control.place := by
  induction xs using List.reverseRecOn with
  | nil => exact sole_begin settings name request host hfew
  | append_singleton xs x ih =>
      have hsame := sameTask_after_begin settings name request host xs
      have hunfailing := (heedful_after_begin settings name request host xs).unfailing
      rw [after_concat]
      exact sole_takes ih rfl hsame (takes_step hunfailing x)

theorem control_of_outcome? {o : Outcome} (h : r.outcome? = some o) :
    r.control = .ended (some o) := by
  unfold outcome? at h
  split at h
  · next heq => rw [heq, h]
  · cases h

/-- The outcome that a whole text ends with is that of an output, but for the warning of the second
ladder; so it has the confidence of repaired output. -/
theorem Sole.mended {o : Outcome} (h : Sole task start xs (.ended (some o))) :
    ∃ output, (start.Gave xs (.whole none) output ∧ o = task.judge output ∧
        ∀ mended, Verdict.Mends output mended → o.parsed = true → o.code = mended ∧
          o.confidence ≤ Verdict.repairedCap ∧ o.warning = some Verdict.repairedWarning) ∨
      ∃ first, start.Gave xs (.whole none) first ∧ (task.judge output).noChange = false ∧
        start.Gave xs (.whole (some (task.judge first))) output ∧
        o = { task.judge output with warning := some retryWarning } ∧
        ∀ mended, Verdict.Mends output mended →
          o.code = mended ∧ o.confidence ≤ Verdict.repairedCap := by
  cases h with
  | @takesFirst output hfirst =>
      exact ⟨output, .inl ⟨hfirst, rfl, fun mended hmends hparsed => hmends.outcome hparsed⟩⟩
  | @takesSecond first output hfirst hsecond hchange =>
      refine ⟨output, .inr ⟨first, hfirst, hchange, hsecond, rfl, fun mended hmends => ?_⟩⟩
      have hparsed : (task.judge output).parsed = true := Verdict.parsed_of_noChange hchange
      exact ⟨(hmends.outcome hparsed).1, (hmends.outcome hparsed).2.1⟩

/-- **What an outcome tells of closers that were appended to a model's text.** For a whole text it has
little confidence, and says so unless it is the second ladder's, which has a warning of its own. For
a chunked text the chunks' outcomes do, and the outcome of the joined text has the confidence of its
own report and tells how many chunks were kept. -/
theorem outcome_of_mended_output {settings : Settings} {name : Text} {request : Request}
    {host : Host} {xs : List Signal} {o : Outcome}
    (h : ((begin settings name request host).after xs).outcome? = some o) :
    let task := opened settings name request host
    let start := begin settings name request host
    let chunks := Chunk.split request.code settings.chunkSize
    let language := Language.resolve request.code request.language
    (chunks.length < 2 → ∃ output,
      (start.Gave xs (.whole none) output ∧ o = task.judge output ∧
        ∀ mended, Verdict.Mends output mended → o.parsed = true → o.code = mended ∧
          o.confidence ≤ Verdict.repairedCap ∧ o.warning = some Verdict.repairedWarning) ∨
      ∃ first, start.Gave xs (.whole none) first ∧ (task.judge output).noChange = false ∧
        start.Gave xs (.whole (some (task.judge first))) output ∧
        o = { task.judge output with warning := some retryWarning } ∧
        ∀ mended, Verdict.Mends output mended →
          o.code = mended ∧ o.confidence ≤ Verdict.repairedCap) ∧
    (2 ≤ chunks.length → ∃ legs : List (Leg task), legs.map Leg.chunk = Chunk.ofTexts chunks ∧
      o.code = Text.unlines (legs.map Leg.piece) ∧
      (∀ leg ∈ legs, ∀ mended, Verdict.Mends leg.output mended → leg.outcome.parsed = true →
        leg.outcome.code = mended ∧ leg.outcome.confidence ≤ Verdict.repairedCap ∧
          leg.outcome.warning = some Verdict.repairedWarning) ∧
      Verdict.scorePercent (Report.ofText o.code language Chunk.defaultSize).score =
        .ok o.confidence ∧
      o.warning = keptWarning (legs.countP Leg.isKept) chunks.length) := by
  intro task start chunks language
  constructor
  · intro hfew
    have hsole := sole_after_begin settings name request host hfew xs
    rw [outcome?_eq_some_iff.1 h] at hsole
    exact hsole.mended
  · intro hmany
    have hgoing := (heedful_after_begin settings name request host xs).going o h
    have hcomposes := composes_after_begin settings name request host hmany xs hgoing
    rw [control_of_outcome? h] at hcomposes
    obtain ⟨legs, hcomposed, -⟩ := hcomposes
    refine ⟨legs, hcomposed.chunks, hcomposed.code, fun leg _ mended hmends hparsed =>
      hmends.outcome hparsed, ?_, hcomposed.warning⟩
    exact hcomposed.confidence

/-- Both chunks come back rewritten, the first with the brackets that were missing. -/
theorem outcome_of_two_rewritten_chunks :
    let code := "for (a of x) \x7b for (b of y) \x7b\n  f();\n  \x7d\n\x7d\nif (c) \x7b\n  g();\n\x7d".toList
    let request : Request := { code := code, code_filled := by decide }
    let call (output : String) : List Signal :=
      [.resume, .opened, .token (.text output.toList), .ended, .settled, .resume, .resume, .resume]
    let signals := call "```\nfor (a of x) \x7b for (b of y) \x7b\n  h();" ++
      .resume :: call "```\nif (c) \x7b\n  h();\n\x7d\n```"
    (Chunk.split code 42).length = 2 ∧
    ∃ o, ((begin { chunkSize := 42 } [] request fun _ => .pass).after signals).outcome? = some o ∧
      o.code = "for (a of x) \x7b for (b of y) \x7b\n  h();\n\x7d\n\x7d\nif (c) \x7b\n  h();\n\x7d".toList ∧
      Verdict.scorePercent (Report.ofText o.code (Language.resolve code "auto".toList)
        Chunk.defaultSize).score = .ok o.confidence := by
  intro code request call signals
  have htwo : (Chunk.split code 42).length = 2 := by decide +kernel
  have hdone : ((begin { chunkSize := 42 } [] request fun _ => .pass).after signals).outcome?.map
      (fun o => o.code) = some
        "for (a of x) \x7b for (b of y) \x7b\n  h();\n\x7d\n\x7d\nif (c) \x7b\n  h();\n\x7d".toList := by
    decide +kernel
  obtain ⟨o, ho, hcode⟩ := Option.map_eq_some_iff.1 hdone
  obtain ⟨legs, -, -, -, hconfidence, -⟩ := (outcome_of_mended_output ho).2 htwo.ge
  exact ⟨htwo, o, ho, hcode, hconfidence⟩

/-- The confidence of repaired output is lost with its warning where the chunks are joined, and its
warning where the second ladder's output is delivered. -/
theorem outcome_of_mended_output_without_cap :
    let first := "for (a of x) \x7b for (b of y) \x7b\n  s += \"k\";\n  \x7d\n\x7d"
    let second := "if (q.includes(1)) \x7b\n  g();\n\x7d"
    let whole := "while (a) \x7b\n  while (b) \x7b\n    f();\n  \x7d\n\x7d"
    let call (output : String) : List Signal :=
      [.resume, .opened, .token (.text output.toList), .ended, .settled, .resume, .resume, .resume]
    let chunked : Request := { code := (first ++ "\n" ++ second).toList, code_filled := by decide }
    let request : Request := { code := whole.toList, code_filled := by decide }
    let cutFirst := "```\nfor (a of x) \x7b for (b of y) \x7b\n  s += \"m\";"
    let cutWhole := "```\nwhile (a) \x7b\n  while (b) \x7b\n    g();"
    let mendedFirst := "for (a of x) \x7b for (b of y) \x7b\n  s += \"m\";\n\x7d\n\x7d"
    let mendedWhole := "while (a) \x7b\n  while (b) \x7b\n    g();\n\x7d\n\x7d"
    (Verdict.Mends cutFirst.toList mendedFirst.toList ∧
      ∃ o, ((begin { chunkSize := 47 } [] chunked fun _ => .pass).after
          (call cutFirst ++ .resume :: call ("```\n" ++ second ++ "\n```"))).outcome? = some o ∧
        o.code = (mendedFirst ++ "\n" ++ second).toList ∧ o.confidence = 66 ∧ o.warning = none) ∧
    (Verdict.Mends cutWhole.toList mendedWhole.toList ∧
      ∃ o, ((begin {} [] request fun _ => .pass).after
          (call ("```\n" ++ whole ++ "\n```") ++ call cutWhole)).outcome? = some o ∧
        o.code = mendedWhole.toList ∧ o.warning = some retryWarning ∧
        retryWarning ≠ Verdict.repairedWarning) := by
  intro first second whole call chunked request cutFirst cutWhole mendedFirst mendedWhole
  have hchunked : ((begin { chunkSize := 47 } [] chunked fun _ => .pass).after
      (call cutFirst ++ .resume :: call ("```\n" ++ second ++ "\n```"))).outcome?.map
        (fun o => (o.code, o.confidence, o.warning)) =
      some ((mendedFirst ++ "\n" ++ second).toList, 66, none) := by
    decide +kernel
  have hwhole : ((begin {} [] request fun _ => .pass).after
      (call ("```\n" ++ whole ++ "\n```") ++ call cutWhole)).outcome?.map
        (fun o => (o.code, o.warning)) = some (mendedWhole.toList, some retryWarning) := by
    decide +kernel
  obtain ⟨o, ho, heq⟩ := Option.map_eq_some_iff.1 hchunked
  obtain ⟨o', ho', heq'⟩ := Option.map_eq_some_iff.1 hwhole
  simp only [Prod.mk.injEq] at heq heq'
  have hfirst : Verdict.Mends cutFirst.toList mendedFirst.toList :=
    ⟨"for (a of x) \x7b for (b of y) \x7b\n  s += \"m\";".toList, by decide, by decide⟩
  have hagain : Verdict.Mends cutWhole.toList mendedWhole.toList :=
    ⟨"while (a) \x7b\n  while (b) \x7b\n    g();".toList, by decide, by decide⟩
  exact ⟨⟨hfirst, o, ho, heq⟩, hagain, o', ho', heq'.1, heq'.2, by decide⟩

end Run
end Refinery
