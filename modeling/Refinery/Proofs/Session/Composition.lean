import Refinery.Proofs.Chunk.Partition
import Refinery.Proofs.Code.Language
import Refinery.Proofs.Session.Cancel
import Refinery.Proofs.Session.Solo

/-!
A run over several chunks that ends with an outcome is made of the ladders of the chunks, each by
itself, one after the other. What it delivers is the pieces that their outputs come to, in order.
-/

namespace Refinery

open Scene

/-- One chunk on its own: its ladder took some signals and ended with an output. -/
structure Leg (task : Run) where
  chunk : Chunk
  /-- The number of its first call. -/
  first : Nat
  signals : List Signal
  output : Text
  result_eq : (task.alone chunk first signals).1.result? = some (.ok output)

namespace Leg

variable {task : Run} (leg : Leg task)

/-- The calls of the engine, in order. -/
def calls : List (Text × SamplingOptions) :=
  Act.called (task.alone leg.chunk leg.first leg.signals).2.acts.reverse

/-- The outcome of the output for the chunk, in the language of the whole text. -/
def outcome : Outcome :=
  Verdict.outcome leg.output leg.chunk.text (task.partReport leg.chunk)
    (some task.report.language) {}

/-- Whether the output was not accepted. -/
def isKept : Bool := !leg.outcome.parsed

/-- Whether the output was accepted and changes the chunk. -/
def isRewritten : Bool := leg.outcome.parsed && !leg.outcome.noChange

/-- What the chunk becomes. -/
def piece : Text :=
  if leg.isRewritten then Chunk.reseat leg.chunk.text leg.outcome.code else leg.chunk.text

theorem piece_of_not_isRewritten (h : leg.isRewritten = false) : leg.piece = leg.chunk.text := by
  simp only [piece, h, Bool.false_eq_true, if_false]

theorem asks_of_mem_calls {call : Text × SamplingOptions} (h : call ∈ leg.calls) :
    (task.errandFor leg.chunk).Asks call.1 := by
  rw [calls, Act.called_reverse, List.mem_reverse] at h
  exact (Run.asksFor_alone task leg.chunk leg.first leg.signals).2.called call h

theorem partText_eq {p : Parts} (hchunk : leg.chunk = p.chunk)
    (hreport : p.report = task.partReport p.chunk) :
    task.partText p leg.output = (leg.piece, leg.isKept) := by
  unfold Run.partText piece isKept isRewritten outcome
  rw [hreport, ← hchunk]
  generalize Verdict.outcome leg.output leg.chunk.text (task.partReport leg.chunk)
    (some task.report.language) {} = o
  simp only
  cases o.parsed <;> cases o.noChange <;> rfl

end Leg

variable {task : Run} {legs : List (Leg task)} {leg : Leg task} {p : Parts} {heard : List Signal}
  {s t : Scene}

/-- The signals and the calls of these legs, in what was heard and called so far. -/
structure Gone (legs : List (Leg task)) (heard : List Signal) (s : Scene) : Prop where
  signals : (legs.flatMap Leg.signals).Sublist heard
  called : Act.called s.acts = (legs.flatMap Leg.calls).reverse

theorem Gone.congr (h : Gone legs heard s) {heard' : List Signal} (hheard : heard.Sublist heard')
    (hcalled : Act.called t.acts = Act.called s.acts) : Gone legs heard' t :=
  ⟨h.signals.trans hheard, hcalled.trans h.called⟩

/-- A leg is gone when its ladder is over. -/
theorem gone_concat (hsignals : (legs.flatMap Leg.signals ++ leg.signals).Sublist heard)
    (hbeside : s.Beside (legs.flatMap Leg.calls).reverse
      (task.alone leg.chunk leg.first leg.signals).2) : Gone (legs ++ [leg]) heard s where
  signals := by rwa [List.flatMap_append, List.flatMap_singleton]
  called := by
    rw [hbeside.called, List.flatMap_append, List.flatMap_singleton, List.reverse_append, Leg.calls,
      Act.called_reverse, List.reverse_reverse]

/-- These are the legs in front of the chunk at hand. -/
structure Led (legs : List (Leg task)) (p : Parts) : Prop where
  chunks : legs.map Leg.chunk ++ p.chunk :: p.later = Chunk.ofTexts task.report.chunks
  report : p.report = task.partReport p.chunk
  outputs : p.outputs = legs.map Leg.piece
  kept : p.kept = legs.countP Leg.isKept
  total : p.total = task.report.chunks.length

/-- An outcome made of the legs of all chunks. -/
structure Composed (legs : List (Leg task)) (o : Outcome) : Prop where
  chunks : legs.map Leg.chunk = Chunk.ofTexts task.report.chunks
  code : o.code = Text.unlines (legs.map Leg.piece)
  warning : o.warning = keptWarning (legs.countP Leg.isKept) task.report.chunks.length
  noChange : o.noChange = (o.code == task.request.code)
  /-- The joined text gets a report of its own. -/
  confidence : Verdict.scorePercent
    (Report.ofText o.code task.report.language Chunk.defaultSize).score = .ok o.confidence

theorem countP_concat_isKept (legs : List (Leg task)) (leg : Leg task) :
    (legs ++ [leg]).countP Leg.isKept =
      if leg.isKept then legs.countP Leg.isKept + 1 else legs.countP Leg.isKept := by
  rw [List.countP_append, List.countP_singleton]
  split <;> rfl

theorem led_nil {c : Chunk} {later : List Chunk}
    (hchunks : Chunk.ofTexts task.report.chunks = c :: later) :
    Led ([] : List (Leg task)) ⟨c, task.partReport c, later, [], 0, task.report.chunks.length⟩ :=
  ⟨hchunks.symm, rfl, rfl, rfl, rfl⟩

theorem Led.next (h : Led legs p) (hchunk : leg.chunk = p.chunk) {c : Chunk} {later : List Chunk}
    (hlater : p.later = c :: later) :
    Led (legs ++ [leg]) ⟨c, task.partReport c, later, p.outputs ++ [leg.piece],
      if leg.isKept then p.kept + 1 else p.kept, p.total⟩ where
  chunks := by
    have hchunks := h.chunks
    rw [hlater, ← hchunk] at hchunks
    rw [List.map_append, List.append_assoc]
    exact hchunks
  report := rfl
  outputs := by
    rw [List.map_append, ← h.outputs]
    rfl
  kept := by rw [countP_concat_isKept, ← h.kept]
  total := h.total

theorem Led.composed (h : Led legs p) (hchunk : leg.chunk = p.chunk) (hlater : p.later = [])
    {after : Report} (hafter : after = Report.ofText (Text.unlines (p.outputs ++ [leg.piece]))
      task.report.language Chunk.defaultSize) :
    Composed (legs ++ [leg]) (chunkedOutcome task.request.code
      (Text.unlines (p.outputs ++ [leg.piece])) task.report after p.total
      (if leg.isKept then p.kept + 1 else p.kept)) where
  chunks := by
    have hchunks := h.chunks
    rw [hlater, ← hchunk] at hchunks
    rw [List.map_append]
    exact hchunks
  code := by
    rw [(chunkedOutcome_spec _ _ _ _ _ _).1, List.map_append, ← h.outputs]
    rfl
  warning := by
    rw [(chunkedOutcome_spec _ _ _ _ _ _).2.2.1, countP_concat_isKept, ← h.kept, ← h.total]
  noChange := by
    obtain ⟨hcode, hnoChange, -, -⟩ := chunkedOutcome_spec task.request.code
      (Text.unlines (p.outputs ++ [leg.piece])) task.report after p.total
      (if leg.isKept then p.kept + 1 else p.kept)
    rw [hnoChange, hcode]
  confidence := by
    subst hafter
    rw [(chunkedOutcome_spec _ _ _ _ _ _).1]
    exact (chunkedOutcome_spec _ _ _ _ _ _).2.2.2

theorem isSome_keptWarning (kept total : Nat) :
    (keptWarning kept total).isSome = true ↔ 0 < kept := by
  rcases Nat.eq_zero_or_pos kept with rfl | hpos
  · rw [keptWarning_zero]
    exact iff_of_false Bool.false_ne_true (Nat.lt_irrefl 0)
  · rw [keptWarning_of_pos hpos]
    exact iff_of_true rfl hpos

theorem Composed.isSome_warning_iff {o : Outcome} (h : Composed legs o) :
    o.warning.isSome = true ↔ ∃ leg ∈ legs, leg.isKept = true := by
  rw [h.warning, isSome_keptWarning, List.countP_pos_iff]

/-- Where no chunk is rewritten, the chunks are put together again. -/
theorem Composed.code_eq {o : Outcome} (h : Composed legs o)
    (hnone : ∀ leg ∈ legs, leg.isRewritten = false) :
    o.code = Text.unlines task.report.chunks := by
  have hpieces : legs.map Leg.piece = legs.map fun leg => leg.chunk.text :=
    List.map_congr_left fun leg hleg => leg.piece_of_not_isRewritten (hnone leg hleg)
  rw [h.code, hpieces, ← Chunk.map_text_ofTexts task.report.chunks, ← h.chunks, List.map_map]
  rfl

/-- A run that nobody has cancelled, so far, is composed of legs and of the ladder at hand. -/
def Control.Composes (task : Run) (heard : List Signal) (s : Scene) : Control → Prop
  | .asking (.parts p) l => ∃ (legs : List (Leg task)) (first : Nat) (signals : List Signal),
      Led legs p ∧ (legs.flatMap Leg.signals ++ signals).Sublist heard ∧
        (task.alone p.chunk first signals).1 = l ∧
        s.Beside (legs.flatMap Leg.calls).reverse (task.alone p.chunk first signals).2
  | .idling (.parts p) (.ok output) => ∃ (legs : List (Leg task)) (leg : Leg task),
      Led legs p ∧ leg.chunk = p.chunk ∧ leg.output = output ∧ Gone (legs ++ [leg]) heard s
  | .pausing p => ∃ legs : List (Leg task), Led legs p ∧ Gone legs heard s
  | .ended (some o) => ∃ legs : List (Leg task), Composed legs o ∧ Gone legs heard s
  | .idling (.parts _) (.error _) => True
  | .ended none => True
  | .asking (.whole _) _ => False
  | .idling (.whole _) _ => False

theorem Control.Composes.congr {c : Control} (h : c.Composes task heard s) {heard' : List Signal}
    (hheard : heard.Sublist heard') (hhost : t.host = s.host) (hcalls : t.calls = s.calls)
    (hcalled : Act.called t.acts = Act.called s.acts) : c.Composes task heard' t := by
  cases c with
  | asking job l =>
      cases job with
      | whole first => exact h.elim
      | parts p =>
          obtain ⟨legs, first, signals, hled, hsignals, hladder, hbeside⟩ := h
          exact ⟨legs, first, signals, hled, hsignals.trans hheard, hladder,
            hbeside.of_eq hhost hcalls hcalled⟩
  | idling job result =>
      cases job with
      | whole first => exact h.elim
      | parts p =>
          cases result with
          | error why => trivial
          | ok output =>
              obtain ⟨legs, leg, hled, hchunk, houtput, hgone⟩ := h
              exact ⟨legs, leg, hled, hchunk, houtput, hgone.congr hheard hcalled⟩
  | pausing p =>
      obtain ⟨legs, hled, hgone⟩ := h
      exact ⟨legs, hled, hgone.congr hheard hcalled⟩
  | ended outcome =>
      cases outcome with
      | none => trivial
      | some o =>
          obtain ⟨legs, hcomposed, hgone⟩ := h
          exact ⟨legs, hcomposed, hgone.congr hheard hcalled⟩

namespace Run

variable {r r' : Run} {x : Signal}

theorem SameTask.errandOf (h : SameTask task r) (hreport : p.report = task.partReport p.chunk) :
    r.errandOf p.chunk.text p.report false p.chunk.context = task.errandFor p.chunk := by
  rw [Run.errandOf, errandFor, hreport, h.1, h.2.1]

theorem SameTask.optionsOf (h : SameTask task r) (code : Text) :
    r.optionsOf code = task.optionsOf code := by
  rw [Run.optionsOf, Run.optionsOf, h.1, h.2.1]

theorem composes_enter (hr : r.scene.Unfailing) (hled : Led legs p) (hgone : Gone legs heard r.scene) :
    (r.enter (.parts p) (task.errandFor p.chunk) 0 (task.optionsOf p.chunk.text)).control.Composes
      task heard r.scene := by
  by_cases hcancelled : r.scene.cancelled = true
  · rw [enter_of_cancelled _ _ _ _ hcancelled]
    trivial
  · rw [enter_of_going _ _ _ _ (by simpa using hcancelled)]
    refine ⟨legs, r.scene.calls, [], hled, by simpa using hgone.signals, rfl, ?_⟩
    exact ⟨hr, calm_unwatched r.scene.calls, rfl, hgone.called⟩

theorem composes_succeed {o : Outcome} (hcomposed : Composed legs o)
    (hgone : Gone legs heard r.scene) :
    (r.succeed o).control.Composes task heard (r.succeed o).scene := by
  by_cases hcancelled : r.scene.cancelled = true
  · rw [succeed_of_cancelled hcancelled]
    trivial
  · rw [control_succeed (by simpa using hcancelled)]
    exact ⟨legs, hcomposed, hgone.congr (.refl heard) (called_succeed r o)⟩

theorem composes_turn (h : r.control.Composes task heard r.scene) (hsame : SameTask task r)
    (hr : r.scene.Unfailing) (hturn : Turn r r') : r'.control.Composes task heard r'.scene := by
  cases hturn with
  | breaks _ _ => trivial
  | stops _ _ => trivial
  | takesFirst hcontrol _ =>
      rw [hcontrol] at h
      exact h.elim
  | asksAgain hcontrol _ =>
      rw [hcontrol] at h
      exact h.elim
  | takesSecond hcontrol _ _ =>
      rw [hcontrol] at h
      exact h.elim
  | pauses hcontrol hlater told =>
      rw [hcontrol] at h
      obtain ⟨legs, leg, hled, hchunk, rfl, hgone⟩ := h
      rw [hsame.partText, leg.partText_eq hchunk hled.report, hsame.partReport]
      exact ⟨legs ++ [leg], hled.next hchunk hlater, hgone.congr (.refl heard) told.called⟩
  | joins hcontrol hlater told after hafter =>
      rw [hcontrol] at h
      obtain ⟨legs, leg, hled, hchunk, rfl, hgone⟩ := h
      rw [hsame.partText, leg.partText_eq hchunk hled.report, hsame.2.2] at hafter
      rw [hsame.partText, leg.partText_eq hchunk hled.report, hsame.2.1, hsame.2.2]
      exact composes_succeed (hled.composed hchunk hlater hafter)
        (hgone.congr (.refl heard) told.called)
  | turnsBack _ _ => trivial
  | asksPart hcontrol told =>
      rw [hcontrol] at h
      obtain ⟨legs, hled, hgone⟩ := h
      rw [hsame.errandOf hled.report, hsame.optionsOf, scene_enter]
      exact composes_enter (told.unfailing hr) hled (hgone.congr (.refl heard) told.called)

/-- **One step preserves it.** -/
theorem composes_takes (h : r.control.Composes task heard r.scene) (hsame : SameTask task r)
    (hr : r.scene.Unfailing) (htakes : Takes r x r') (hgoing : r'.scene.cancelled = false) :
    r'.control.Composes task (heard ++ [x]) r'.scene := by
  have hheard : heard.Sublist (heard ++ [x]) := List.sublist_append_left heard [x]
  cases htakes with
  | cancels => exact h.congr hheard (host_cancel _) (calls_cancel _) (called_cancel _)
  | @ticks job l i s hcontrol hs hi =>
      refine h.congr hheard ?_ ?_ ?_
      · rw [hs]
        exact host_emit _ _
      · rw [hs]
        exact calls_tell _ _
      · rw [hs]
        exact called_tell _ _
  | @climbs job l l' s _ hcontrol hx hstep _ _ =>
      rw [hcontrol] at h
      cases job with
      | whole first => exact h.elim
      | parts p =>
          obtain ⟨legs, first, signals, hled, hsignals, hladder, hbeside⟩ := h
          -- the ladder by itself takes the signal too, and a leg is gone where it ends in output
          rw [scene_withLadder] at hgoing ⊢
          rw [hsame.1] at hstep
          obtain ⟨hladder', hbeside'⟩ := alone_step hladder hbeside hx hstep hgoing
          have hsignals' : (legs.flatMap Leg.signals ++ (signals ++ [x])).Sublist (heard ++ [x]) := by
            rw [← List.append_assoc]
            exact hsignals.append_right [x]
          unfold withLadder
          cases hresult : l'.result? with
          | none => exact ⟨legs, first, signals ++ [x], hled, hsignals', hladder', hbeside'⟩
          | some result =>
              cases result with
              | error why => trivial
              | ok output =>
                  let leg : Leg task := ⟨p.chunk, first, signals ++ [x], output, hladder' ▸ hresult⟩
                  exact ⟨legs, leg, hled, rfl, rfl, gone_concat hsignals' hbeside'⟩
  | turns hturn => exact (composes_turn h hsame hr hturn).congr hheard rfl rfl rfl
  | waits _ => exact h.congr hheard rfl rfl rfl

theorem language_partReport_opened (settings : Settings) (name : Text) (request : Request)
    (host : Host) (c : Chunk) : ((opened settings name request host).partReport c).language =
      Language.resolve request.code request.language := by
  show (Report.ofText c.text (Report.ofText request.code request.language
    settings.chunkSize).language Chunk.defaultSize).language = _
  rw [Report.language_ofText, Report.language_ofText, Language.resolve_resolve]

theorem composes_begin (settings : Settings) (name : Text) (request : Request) (host : Host)
    (hmany : 2 ≤ (Chunk.split request.code settings.chunkSize).length) :
    (begin settings name request host).control.Composes (opened settings name request host) []
      (begin settings name request host).scene := by
  have hunfailing : (opened settings name request host).scene.Unfailing :=
    unfailing_shielded (opened settings name request host).scene host
  have hbegins := begins_begin settings name request host
  generalize begin settings name request host = r at hbegins
  cases hbegins with
  | turnsBack _ _ => trivial
  | asksPart hchunks hp told =>
      subst hp
      rw [scene_enter]
      exact composes_enter (told.unfailing hunfailing) (led_nil hchunks) ⟨.refl [], told.called⟩
  | asksWhole hfew _ =>
      rw [Chunk.length_ofTexts] at hfew
      exact absurd hmany (Nat.not_le_of_lt hfew)

theorem composes_after_begin (settings : Settings) (name : Text) (request : Request) (host : Host)
    (hmany : 2 ≤ (Chunk.split request.code settings.chunkSize).length) (xs : List Signal)
    (hgoing : ((begin settings name request host).after xs).scene.cancelled = false) :
    ((begin settings name request host).after xs).control.Composes
      (opened settings name request host) xs ((begin settings name request host).after xs).scene := by
  induction xs using List.reverseRecOn with
  | nil => exact composes_begin settings name request host hmany
  | append_singleton xs x ih =>
      have hheedful := heedful_after_begin settings name request host xs
      have hsame := sameTask_after_begin settings name request host xs
      rw [after_concat] at hgoing ⊢
      -- a cancellation stays, so nobody had cancelled in front of the last signal either
      exact composes_takes (ih (going_of_step hgoing)) hsame hheedful.unfailing
        (takes_step hheedful.unfailing x) hgoing

/-- **The outcome of a chunked run is composed, chunk by chunk, of what their ladders come to by
themselves.** Each ladder takes signals of its own and makes its calls after those of the chunks
before it, for prompts in the language that was settled for the whole text. -/
theorem outcome_of_legs {settings : Settings} {name : Text} {request : Request} {host : Host}
    {xs : List Signal} {o : Outcome}
    (hmany : 2 ≤ (Chunk.split request.code settings.chunkSize).length)
    (h : ((begin settings name request host).after xs).outcome? = some o) :
    let task := opened settings name request host
    let chunks := Chunk.split request.code settings.chunkSize
    let language := Language.resolve request.code request.language
    let acts := ((begin settings name request host).after xs).scene.acts
    ∃ legs : List (Leg task),
      legs.map Leg.chunk = Chunk.ofTexts chunks ∧
      (legs.flatMap Leg.signals).Sublist xs ∧
      Act.called acts.reverse = legs.flatMap Leg.calls ∧
      (∀ leg ∈ legs, (task.errandFor leg.chunk).report.language = language ∧
        Verdict.validate leg.output leg.chunk.text (task.errandFor leg.chunk).report
          (some language) {} = .ok leg.outcome ∧
        ∀ call ∈ leg.calls, (task.errandFor leg.chunk).Asks call.1) ∧
      o.code = Text.unlines (legs.map Leg.piece) ∧
      (legs.countP Leg.isKept = 0 → o.warning = none) ∧
      (0 < legs.countP Leg.isKept → o.warning = some (Text.ofNat (legs.countP Leg.isKept) ++
        " of ".toList ++ Text.ofNat chunks.length ++
        " chunk(s) kept their original code because the model output could not be validated.".toList)) ∧
      (o.warning.isSome = true ↔ ∃ leg ∈ legs, leg.isKept = true) ∧
      ((∀ leg ∈ legs, leg.isRewritten = false) → o.code = request.code ∧ o.noChange = true) := by
  intro task chunks language acts
  have hgoing := (heedful_after_begin settings name request host xs).going o h
  have hcomposes := composes_after_begin settings name request host hmany xs hgoing
  have hcontrol : ((begin settings name request host).after xs).control = .ended (some o) := by
    unfold outcome? at h
    split at h
    · next heq => rw [heq, h]
    · cases h
  rw [hcontrol] at hcomposes
  obtain ⟨legs, hcomposed, hgone⟩ := hcomposes
  refine ⟨legs, hcomposed.chunks, hgone.signals, ?_, fun leg hleg => ⟨?_, ?_, ?_⟩, hcomposed.code,
    fun hkept => ?_, fun hkept => ?_, hcomposed.isSome_warning_iff, fun hnone => ?_⟩
  · rw [Act.called_reverse, hgone.called, List.reverse_reverse]
  · exact language_partReport_opened settings name request host leg.chunk
  · exact Verdict.validate_report leg.output leg.chunk.text (task.partReport leg.chunk) _ _
  · exact fun call => leg.asks_of_mem_calls
  · rw [hcomposed.warning, hkept, keptWarning_zero]
  · exact hcomposed.warning.trans (keptWarning_of_pos hkept _)
  · have hcode : o.code = request.code :=
      (hcomposed.code_eq hnone).trans (Chunk.unlines_split request.code settings.chunkSize)
    exact ⟨hcode, by rw [hcomposed.noChange, hcode]; exact beq_self_eq_true _⟩

/-- The first chunk is rewritten, and the second one keeps its text. -/
theorem outcome_of_two_legs :
    let request : Request := { code := "count = first(items)\nb = 2".toList, code_filled := by decide }
    let call (output : String) : List Signal :=
      [.resume, .opened, .token (.text output.toList), .ended, .settled, .resume, .resume, .resume]
    let signals := call "```\ncount = first(rows)\n```" ++ .resume :: call "```\nprint(x)\n```"
    (Chunk.split request.code 12).length = 2 ∧
    ∃ o, ((begin { chunkSize := 12 } [] request fun _ => .pass).after signals).outcome? = some o ∧
      ∃ legs : List (Leg (opened { chunkSize := 12 } [] request fun _ => .pass)),
        legs.map Leg.chunk = Chunk.ofTexts (Chunk.split request.code 12) ∧
        Text.unlines (legs.map Leg.piece) = "count = first(rows)\nb = 2".toList ∧
        (∃ leg ∈ legs, leg.isKept = true) ∧
        o.warning = some (Text.ofNat (legs.countP Leg.isKept) ++ " of ".toList ++ Text.ofNat 2 ++
          " chunk(s) kept their original code because the model output could not be validated.".toList) ∧
        o.warning = some ("1 of 2 chunk(s) kept their original code because the model output " ++
          "could not be validated.").toList := by
  intro request call signals
  have htwo : (Chunk.split "count = first(items)\nb = 2".toList 12).length = 2 := by
    decide +kernel
  have hdone : ((begin { chunkSize := 12 } [] request fun _ => .pass).after signals).outcome?.map
      (fun o => (o.code, o.warning)) = some ("count = first(rows)\nb = 2".toList,
        some ("1 of 2 chunk(s) kept their original code because the model output " ++
          "could not be validated.").toList) := by
    decide +kernel
  obtain ⟨o, ho, heq⟩ := Option.map_eq_some_iff.1 hdone
  obtain ⟨hcode, hwarning⟩ := Prod.mk.inj heq
  obtain ⟨legs, hchunks, -, -, -, hjoined, -, htold, hkept, -⟩ := outcome_of_legs htwo.ge ho
  have hsome : ∃ leg ∈ legs, leg.isKept = true := hkept.1 (by rw [hwarning, Option.isSome_some])
  have hcounted := htold (List.countP_pos_iff.2 hsome)
  rw [htwo] at hcounted
  exact ⟨htwo, o, ho, legs, hchunks, hjoined.symm.trans hcode, hsome, hcounted, hwarning⟩

end Run
end Refinery
