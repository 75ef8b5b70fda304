import Refinery.Proofs.Session.Repair

/-!
What it means that an outcome reports no change. The outcome of a text that is asked for as a whole
reports none where the delivered code is the given one up to blanks at the ends of lines and of the
text, and so does the outcome of every chunk. The outcome of a chunked text reports none where the
joined pieces are the given text to the letter, so the two readings part where a chunk that was
rewritten has lost or gained such blanks and nothing else.
-/

namespace Refinery

open Similarity

theorem Similarity.unchanged_refl (t : Text) : unchanged t t = true := beq_self_eq_true _

/-- Judged by itself, an output counts as a change by its blanks nowhere. -/
theorem Verdict.noChange_outcome (raw source : Text) (r : Report) (given : Option Text)
    (limits : Thresholds) : (outcome raw source r given limits).noChange =
      unchanged source (outcome raw source r given limits).code := by
  cases hparsed : (outcome raw source r given limits).parsed with
  | true => exact (passes_of_validate (validate_report raw source r given limits) hparsed).2
  | false =>
      obtain ⟨hcode, hnoChange⟩ := kept_outcome hparsed
      rw [hcode, hnoChange, unchanged_refl]

section Legs

variable {task start : Run} {xs : List Signal} {legs : List (Leg task)} {o : Outcome}

/-- A chunk is rewritten where its outcome is another text than the chunk, blanks apart. -/
theorem Leg.isRewritten_eq (leg : Leg task) :
    leg.isRewritten = !unchanged leg.chunk.text leg.outcome.code := by
  unfold isRewritten
  cases hparsed : leg.outcome.parsed with
  | true => rw [Bool.true_and, outcome, Verdict.noChange_outcome]
  | false =>
      have hnoChange : leg.outcome.noChange = true := by
        by_contra hchange
        rw [outcome, Verdict.parsed_of_noChange (Bool.eq_false_iff.2 hchange)] at hparsed
        cases hparsed
      rw [outcome, Verdict.noChange_outcome] at hnoChange
      rw [outcome, hnoChange]
      rfl

/-- The outcome that a whole text ends with is one of its outputs' outcomes, but for a warning. -/
theorem Run.Sole.noChange_eq (h : Run.Sole task start xs (.ended (some o))) :
    o.noChange = unchanged task.request.code o.code := by
  cases h with
  | takesFirst _ => exact Verdict.noChange_outcome _ _ _ _ _
  | takesSecond _ _ _ => exact Verdict.noChange_outcome _ _ _ _ _

theorem Composed.noChange_iff (h : Composed legs o) :
    o.noChange = true ↔ o.code = task.request.code := by
  rw [h.noChange, beq_iff_eq]

/-- Where the joined pieces differ from the given text in blanks, a chunk was rewritten. -/
theorem Composed.exists_rewritten (h : Composed legs o)
    (hchunks : Text.unlines task.report.chunks = task.request.code)
    (hne : o.code ≠ task.request.code) :
    ∃ leg ∈ legs, leg.isRewritten = true ∧ leg.piece ≠ leg.chunk.text := by
  by_contra hnone
  push Not at hnone
  have hpieces : legs.map Leg.piece = legs.map fun leg => leg.chunk.text := by
    refine List.map_congr_left fun leg hleg => ?_
    cases hrewritten : leg.isRewritten with
    | true => exact hnone leg hleg hrewritten
    | false => exact leg.piece_of_not_isRewritten hrewritten
  refine hne ?_
  calc o.code = Text.unlines (legs.map Leg.piece) := h.code
    _ = Text.unlines (legs.map fun leg => leg.chunk.text) := by rw [hpieces]
    _ = Text.unlines ((legs.map Leg.chunk).map Chunk.text) := by rw [List.map_map]; rfl
    _ = Text.unlines task.report.chunks := by rw [h.chunks, Chunk.map_text_ofTexts]
    _ = task.request.code := hchunks

end Legs

namespace Run

/-- **What an outcome's report of no change means.** Of a whole text it means that the code is the
given one up to blanks at the ends of lines and of the text. Of a chunked text it means that the code
is the given one; by their own outcomes its chunks are rewritten only where more than such blanks
has changed. The two meanings agree on an outcome exactly if it is not the given text with other
blanks, and where they do not some chunk was rewritten, while all filled lines are as they were. -/
theorem noChange_of_outcome {settings : Settings} {name : Text} {request : Request} {host : Host}
    {xs : List Signal} {o : Outcome}
    (h : ((begin settings name request host).after xs).outcome? = some o) :
    let chunks := Chunk.split request.code settings.chunkSize
    (chunks.length < 2 → o.noChange = unchanged request.code o.code) ∧
    (2 ≤ chunks.length → ∃ legs : List (Leg (opened settings name request host)),
      legs.map Leg.chunk = Chunk.ofTexts chunks ∧
      o.code = Text.unlines (legs.map Leg.piece) ∧
      (∀ leg ∈ legs, leg.isRewritten = !unchanged leg.chunk.text leg.outcome.code) ∧
      (o.noChange = true ↔ o.code = request.code) ∧
      (o.noChange = unchanged request.code o.code ↔
        (unchanged request.code o.code = true → o.code = request.code)) ∧
      (o.noChange ≠ unchanged request.code o.code →
        o.noChange = false ∧ filledLines o.code = filledLines request.code ∧
          ∃ leg ∈ legs, leg.isRewritten = true ∧ leg.piece ≠ leg.chunk.text)) := by
  intro chunks
  constructor
  · intro hfew
    have hsole := sole_after_begin settings name request host hfew xs
    rw [outcome?_eq_some_iff.1 h] at hsole
    exact hsole.noChange_eq
  · intro hmany
    have hgoing := (heedful_after_begin settings name request host xs).going o h
    have hcomposes := composes_after_begin settings name request host hmany xs hgoing
    rw [control_of_outcome? h] at hcomposes
    obtain ⟨legs, hcomposed, -⟩ := hcomposes
    have hiff : o.noChange = true ↔ o.code = request.code := hcomposed.noChange_iff
    -- a text that is given back to the letter is unchanged, so only the other direction can fail
    have hsame : o.code = request.code → unchanged request.code o.code = true := by
      intro hcode
      rw [hcode]
      exact unchanged_refl request.code
    have hagree : o.noChange = unchanged request.code o.code ↔
        (unchanged request.code o.code = true → o.code = request.code) := by
      rw [Bool.eq_iff_iff, hiff]
      exact ⟨fun hboth => hboth.2, fun hback => ⟨hsame, hback⟩⟩
    refine ⟨legs, hcomposed.chunks, hcomposed.code, fun leg _ => leg.isRewritten_eq, hiff, hagree,
      fun hpart => ?_⟩
    obtain ⟨hblanks, hne⟩ := Classical.not_imp.1 fun hback => hpart (hagree.2 hback)
    exact ⟨Bool.eq_false_iff.2 fun hnone => hne (hiff.1 hnone),
      (filledLines_of_unchanged hblanks).symm,
      hcomposed.exists_rewritten (Chunk.unlines_split request.code settings.chunkSize) hne⟩

/-- A whole text comes back without a blank at its end, and the first of two chunks rewritten. -/
theorem noChange_of_two_texts :
    let whole : Request := { code := "count = first(items) ".toList, code_filled := by decide }
    let chunked : Request :=
      { code := "count = first(items)\nb = 2".toList, code_filled := by decide }
    let call (output : String) : List Signal :=
      [.resume, .opened, .token (.text output.toList), .ended, .settled, .resume, .resume, .resume]
    (∃ o, ((begin {} [] whole fun _ => .pass).after
        (call "```\ncount = first(items)\n```")).outcome? = some o ∧
      o.code = "count = first(items)".toList ∧ o.noChange = true) ∧
    ∃ o, ((begin { chunkSize := 12 } [] chunked fun _ => .pass).after
        (call "```\ncount = first(rows)\n```" ++ .resume :: call "```\nb = 2\n```")).outcome? =
          some o ∧
      o.code = "count = first(rows)\nb = 2".toList ∧ o.noChange = false ∧
      ∃ legs : List (Leg (opened { chunkSize := 12 } [] chunked fun _ => .pass)),
        o.code = Text.unlines (legs.map Leg.piece) ∧
        ∀ leg ∈ legs, leg.isRewritten = !unchanged leg.chunk.text leg.outcome.code := by
  intro whole chunked call
  have hone : (Chunk.split "count = first(items) ".toList ({} : Settings).chunkSize).length < 2 := by
    decide +kernel
  have htwo : 2 ≤ (Chunk.split "count = first(items)\nb = 2".toList 12).length := by
    decide +kernel
  have hwhole : ((begin {} [] whole fun _ => .pass).after
      (call "```\ncount = first(items)\n```")).outcome?.map Outcome.code =
        some "count = first(items)".toList := by
    decide +kernel
  have hchunked : ((begin { chunkSize := 12 } [] chunked fun _ => .pass).after
      (call "```\ncount = first(rows)\n```" ++ .resume :: call "```\nb = 2\n```")).outcome?.map
        Outcome.code = some "count = first(rows)\nb = 2".toList := by
    decide +kernel
  obtain ⟨o, ho, hcode⟩ := Option.map_eq_some_iff.1 hwhole
  obtain ⟨o', ho', hcode'⟩ := Option.map_eq_some_iff.1 hchunked
  obtain ⟨legs, -, hjoined, hrewritten, hiff, -, -⟩ := (noChange_of_outcome ho').2 htwo
  refine ⟨⟨o, ho, hcode, ?_⟩, o', ho', hcode', ?_, legs, hjoined, hrewritten⟩
  · rw [(noChange_of_outcome ho).1 hone, hcode]
    decide
  · rw [Bool.eq_false_iff, ne_eq, hiff, hcode']
    decide

/-- The first of two chunks comes back with its lines moved to the left, as models often write them,
and without the blank at its end. Its lines are put back where they were, and the joined text is the
given one but for that blank; still it is reported as a change. -/
theorem change_reported_for_lost_blank :
    let request : Request :=
      { code := "  a = 1\n  b = 2 \nc = 3".toList, code_filled := by decide,
        language := "Python".toList }
    let call (output : String) : List Signal :=
      [.resume, .opened, .token (.text output.toList), .ended, .settled, .resume, .resume, .resume]
    ∃ o, ((begin { chunkSize := 16 } [] request fun _ => .pass).after
        (call "```python\na = 1\nb = 2 \n```" ++
          .resume :: call "```python\nc = 3\n```")).outcome? = some o ∧
      o.code = "  a = 1\n  b = 2\nc = 3".toList ∧
      unchanged request.code o.code = true ∧ o.noChange = false := by
  intro request call
  have hdone : ((begin { chunkSize := 16 } [] request fun _ => .pass).after
      (call "```python\na = 1\nb = 2 \n```" ++
        .resume :: call "```python\nc = 3\n```")).outcome?.map
      (fun o => (o.code, o.noChange)) = some ("  a = 1\n  b = 2\nc = 3".toList, false) := by
    decide +kernel
  obtain ⟨o, ho, heq⟩ := Option.map_eq_some_iff.1 hdone
  obtain ⟨hcode, hnoChange⟩ := Prod.mk.inj heq
  refine ⟨o, ho, hcode, ?_, hnoChange⟩
  rw [hcode]
  decide

end Run
end Refinery
