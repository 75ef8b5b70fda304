import Refinery.Proofs.Answer.Verdict
import Refinery.Proofs.Chunk.Layout
import Refinery.Proofs.Chunk.Partition
import Refinery.Proofs.Session.Run

/-!
A run loses no name. What a run holds on its way already has the names of its part of the text: the
first outcome those of the whole, and each revised chunk those of the chunk. Seating and joining
keep them, so that the delivered text has them though it is not looked at again.
-/

namespace Refinery

open Declared

/-- The chunks up to the one at hand have their revisions, each with all the names of its chunk, and
the chunks from there on are still to come. -/
def Parts.Keeps (chunks : List Text) (p : Parts) : Prop :=
  ∃ done, List.Forall₂ Declared.Keeps done p.outputs ∧
    done ++ p.chunk.text :: p.later.map Chunk.text = chunks

/-- What a run holds at a place has the names of the text. -/
def Place.Keeps (code : Text) (chunks : List Text) : Place → Prop
  | .on (.whole none) => True
  | .on (.whole (some first)) => Declared.Keeps code first.code
  | .on (.parts p) => p.Keeps chunks
  | .ended none => True
  | .ended (some o) => Declared.Keeps code o.code

namespace Chunk

/-- A revision keeps the names of a chunk also when it is seated in its place. -/
theorem keeps_reseat {chunk revised : Text} (h : Keeps chunk revised) :
    Keeps chunk (reseat chunk revised) := by
  cases hblank : Text.blank chunk with
  | true =>
      rw [reseat_of_blank revised hblank]
      exact Keeps.refl chunk
  | false =>
      refine h.mono ?_
      rw [filledLines_reseat revised hblank]
      exact List.Subset.refl _

end Chunk

namespace Run

/-- What becomes of a chunk has its names, whatever the model has written. -/
theorem keeps_partText (r : Run) (p : Parts) (output : Text) :
    Keeps p.chunk.text (r.partText p output).1 := by
  unfold partText
  simp only
  split
  · exact Keeps.refl _
  · split
    · exact Chunk.keeps_reseat (Verdict.keeps_outcome _ _ _ _ _)
    · exact Keeps.refl _

/-- The chunks make up the text, and nothing that the run holds has lost a name. -/
structure Lossless (r : Run) : Prop where
  whole : Text.unlines r.report.chunks = r.request.code
  place : r.control.place.Keeps r.request.code r.report.chunks

theorem Lossless.of_sameTask {r r' : Run} (h : r.Lossless) (hsame : SameTask r r')
    (hplace : r'.control.place.Keeps r.request.code r.report.chunks) : r'.Lossless := by
  obtain ⟨-, hrequest, hreport⟩ := hsame
  refine ⟨?_, ?_⟩
  · rw [hreport, hrequest]
    exact h.whole
  · rw [hreport, hrequest]
    exact hplace

theorem keeps_place_succeed {code : Text} {chunks : List Text} {r : Run} {o : Outcome}
    (h : Keeps code o.code) : (r.succeed o).control.place.Keeps code chunks := by
  rcases r.place_succeed o with hplace | hplace
  · rw [hplace]
    exact trivial
  · rw [hplace]
    exact h

/-- The revision of one more chunk. -/
theorem forall₂_concat_partText {r : Run} {p : Parts} {done : List Text} (output : Text)
    (h : List.Forall₂ Keeps done p.outputs) :
    List.Forall₂ Keeps (done ++ [p.chunk.text]) (p.outputs ++ [(r.partText p output).1]) :=
  List.rel_append h (.cons (keeps_partText r p output) .nil)

/-- **No step loses a name.** -/
theorem Lossless.advance {r r' : Run} (h : r.Lossless) (hadvance : Advance r r') :
    r'.Lossless := by
  refine h.of_sameTask hadvance.sameTask ?_
  have hheld := h.place
  cases hadvance with
  | stays _ place =>
      rw [place]
      exact hheld
  | fails _ _ _ => exact trivial
  | takesFirst _ _ output => exact keeps_place_succeed (Verdict.keeps_outcome _ _ _ _ _)
  | asksAgain _ _ output place' =>
      rw [place']
      exact Verdict.keeps_outcome _ _ _ _ _
  | keepsFirst _ place =>
      rw [place] at hheld
      exact keeps_place_succeed hheld
  | takesSecond _ _ output => exact keeps_place_succeed (Verdict.keeps_outcome _ _ _ _ _)
  | @goesOn _ p c later _ place hlater output _ place' =>
      rw [place] at hheld
      obtain ⟨done, hdone, hchunks⟩ := hheld
      rw [place']
      refine ⟨done ++ [p.chunk.text], forall₂_concat_partText output hdone, ?_⟩
      rw [← hchunks, hlater, List.append_assoc]
      rfl
  | @joins _ p _ place hlater output _ _ =>
      rw [place] at hheld
      obtain ⟨done, hdone, hchunks⟩ := hheld
      have hcode : r.request.code = Text.unlines (done ++ [p.chunk.text]) := by
        rw [← h.whole, ← hchunks, hlater]
        rfl
      refine keeps_place_succeed ?_
      rw [hcode, (chunkedOutcome_spec _ _ _ _ _ _).1]
      exact keeps_unlines (forall₂_concat_partText output hdone)

theorem Lossless.opening {r r' : Run} (h : r.Lossless) (hopening : Opening r r') :
    r'.Lossless := by
  refine h.of_sameTask hopening.sameTask ?_
  cases hopening with
  | fails _ _ => exact trivial
  | whole _ place =>
      rw [place]
      exact trivial
  | @parts _ c later _ hchunks place =>
      rw [place]
      refine ⟨[], .nil, ?_⟩
      have htexts := congrArg (List.map Chunk.text) hchunks
      rw [Chunk.map_text_ofTexts] at htexts
      exact htexts.symm

theorem lossless_after_begin (settings : Settings) (name : Text) (request : Request)
    (host : Host) (xs : List Signal) : ((begin settings name request host).after xs).Lossless := by
  have hopened : (opened settings name request host).Lossless :=
    ⟨Chunk.unlines_split request.code settings.chunkSize, trivial⟩
  exact after_induction xs (hopened.opening (opening_begin settings name request host))
    fun r x h => h.advance (advance_step r x)

/-- **A run that ends with an outcome has lost no name of the given text**, whatever the settings
are, whatever the engine does, and whenever the request is cancelled. -/
theorem outcome_loses_nothing {settings : Settings} {name : Text} {request : Request} {host : Host}
    {xs : List Signal} {o : Outcome}
    (h : ((begin settings name request host).after xs).outcome? = some o) :
    (lost request.code o.code).isEmpty = true := by
  have hplace := (lossless_after_begin settings name request host xs).place
  have hrequest := (sameTask_after_begin settings name request host xs).2.1
  rw [outcome?_eq_some_iff.1 h, hrequest] at hplace
  exact hplace

/-- The first of two chunks is rewritten, the second is repeated. -/
theorem outcome_of_two_chunks :
    let request : Request := { code := "count = first(items)\nb = 2".toList, code_filled := by decide }
    let call (output : String) : List Signal :=
      [.resume, .opened, .token (.text output.toList), .ended, .settled, .resume, .resume, .resume]
    let signals := call "```\ncount = first(rows)\n```" ++ .resume :: call "b = 2"
    ∃ o, ((begin { chunkSize := 12 } [] request fun _ => .pass).after signals).outcome? = some o ∧
      o.code = "count = first(rows)\nb = 2".toList ∧
      (lost request.code o.code).isEmpty = true := by
  intro request call signals
  have hdone : ((begin { chunkSize := 12 } [] request fun _ => .pass).after signals).outcome?.map
      Outcome.code = some "count = first(rows)\nb = 2".toList := by
    decide +kernel
  obtain ⟨o, ho, hcode⟩ := Option.map_eq_some_iff.1 hdone
  exact ⟨o, ho, hcode, outcome_loses_nothing ho⟩

end Run
end Refinery
