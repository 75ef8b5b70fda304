import Refinery.Proofs.Session.Climb
import Refinery.Proofs.Session.Run

/-!
What a run makes of a signal, exactly: the events that it tells, the phases that it shows, and where
it stands then. While it asks, its ladder climbs; at its turn after a ladder or in front of a chunk
it ends, or enters the next ladder.
-/

namespace Refinery
namespace Run

open Scene

/-- `r'` is `r` after some more events and phases, newest first. No call is made meanwhile; where the
run is does not count. -/
structure Tells (new : List Act) (r r' : Run) : Prop where
  quiet : Quiet r r'
  marks : Act.marks r'.scene.acts = new ++ Act.marks r.scene.acts
  called : Act.called r'.scene.acts = Act.called r.scene.acts
  calls : r'.scene.calls = r.scene.calls
  hint : r'.scene.context.hint = r.scene.context.hint

variable {new more : List Act} {r r' r'' : Run}

theorem Tells.refl (r : Run) : Tells [] r r := ⟨Quiet.refl r, rfl, rfl, rfl, rfl⟩

theorem Tells.trans (h : Tells new r r') (h' : Tells more r' r'') : Tells (more ++ new) r r'' where
  quiet := h.quiet.trans h'.quiet
  marks := by rw [h'.marks, h.marks, List.append_assoc]
  called := h'.called.trans h.called
  calls := h'.calls.trans h.calls
  hint := h'.hint.trans h.hint

theorem Tells.tell (h : Tells new r r') {e : Event} (he : e.isTerminal = false) :
    Tells (.event e :: new) r (r'.tell e) := by
  have hone : Tells [.event e] r' (r'.tell e) :=
    ⟨quiet_tell r' he, marks_tell _ e, called_tell _ e, calls_emit _ e, hint_emit _ e⟩
  exact h.trans hone

theorem Tells.phase (h : Tells new r r') (p : Phase) : Tells (.phase p :: new) r (r'.phase p) := by
  have hone : Tells [.phase p] r' (r'.phase p) := ⟨quiet_phase r' p, rfl, rfl, rfl, rfl⟩
  exact h.trans hone

theorem Tells.unfailing (h : Tells new r r') (hr : r.scene.Unfailing) : r'.scene.Unfailing :=
  unfailing_congr hr h.quiet.scene.host_eq

theorem called_fail (r : Run) (why : Failure) :
    Act.called (r.fail why).scene.acts = Act.called r.scene.acts :=
  called_tell (r.phase (verdictOn why).1).scene _

theorem marks_fail (r : Run) (why : Failure) : Act.marks (r.fail why).scene.acts =
    .event (.error (verdictOn why).2) :: .phase (verdictOn why).1 :: Act.marks r.scene.acts :=
  marks_tell (r.phase (verdictOn why).1).scene _

theorem succeed_of_cancelled (h : r.scene.cancelled = true) (o : Outcome) :
    r.succeed o = r.fail Generation.cancelledFailure := by
  rw [succeed, if_pos h]

theorem control_succeed (h : r.scene.cancelled = false) (o : Outcome) :
    (r.succeed o).control = .ended (some o) := by
  rw [succeed, if_neg (by simp [h])]

theorem called_succeed (r : Run) (o : Outcome) :
    Act.called (r.succeed o).scene.acts = Act.called r.scene.acts := by
  unfold succeed
  split
  · exact called_fail r _
  · exact called_tell ((r.phase .done).dismiss.unbind).scene _

theorem marks_succeed (h : r.scene.cancelled = false) (o : Outcome) :
    Act.marks (r.succeed o).scene.acts =
      .event (.done o) :: .phase .done :: Act.marks r.scene.acts := by
  rw [succeed, if_neg (by simp [h])]
  exact marks_tell ((r.phase .done).dismiss.unbind).scene _

/-- What a run asks for with a text. -/
def errandOf (r : Run) (code : Text) (report : Report) (insist : Bool) (context : Option Text) :
    Errand where
  code := code
  report := report
  focus := r.request.focus
  insist := insist
  context := context
  fast := r.request.fast
  maxRetries := r.settings.maxTruncationRetries

def optionsOf (r : Run) (code : Text) : SamplingOptions :=
  ⟨Request.tokenBudget code r.request.fast, r.settings.temperature, r.settings.topP⟩

@[simp] theorem scene_withLadder (r : Run) (job : Job) (l : Ladder) :
    (r.withLadder job l).scene = r.scene := by
  unfold withLadder
  split <;> rfl

/-- Enters the first rung of a ladder. -/
def enter (r : Run) (job : Job) (e : Errand) (level : Int) (options : SamplingOptions) : Run :=
  r.withLadder job (Ladder.start (some e) (e.first level) options r.scene)

section Enter

variable (job : Job) (e : Errand) (level : Int) (options : SamplingOptions)

theorem enter_of_cancelled (h : r.scene.cancelled = true) : r.enter job e level options =
    { r with control := .idling job (.error Generation.cancelledFailure) } := by
  rw [enter, Ladder.start, Ladder.enter, if_pos h]
  rfl

theorem enter_of_going (h : r.scene.cancelled = false) : r.enter job e level options =
    { r with control := .asking job ⟨some e, e.first level, options,
      .running { prompt := e.prompt level, options := options }⟩ } := by
  rw [enter, Ladder.start, Ladder.enter, if_neg (by simp [h])]
  rfl

@[simp] theorem scene_enter (r : Run) : (r.enter job e level options).scene = r.scene :=
  scene_withLadder r job _

end Enter

/-- A text is asked for: that the model writes is shown, with a hint the first time. -/
theorem exists_ask (r : Run) (job : Job) (code : Text) (report : Report) (level : Int)
    (insist : Bool) (context : Option Text) :
    ∃ r₁, Tells ((if insist then [] else [.event (.substage (.hint r.scene.context.hint))]) ++
        [.phase .generating]) r r₁ ∧
      r.ask job code report level insist context =
        r₁.enter job (r.errandOf code report insist context) level (r.optionsOf code) := by
  cases insist with
  | true => exact ⟨r.phase .generating, (Tells.refl r).phase _, rfl⟩
  | false => exact ⟨_, ((Tells.refl r).phase .generating).tell rfl, rfl⟩

/-- That a chunk keeps its text is told. -/
def keptMarks (kept : Bool) : List Act := if kept then [.event (.substage .keptChunk)] else []

/-- What a run makes of its turn after a ladder, or in front of a chunk. -/
inductive Turn (r : Run) : Run → Prop
  | breaks {r₁ : Run} {job : Job} {why : Failure} (hcontrol : r.control = .idling job (.error why))
      (told : Tells [.event .streamIdle] r r₁) : Turn r (r₁.fail why)
  | stops {r₁ : Run} {output : Text} (hcontrol : r.control = .idling (.whole none) (.ok output))
      (told : Tells [.event (.stage .finalizing), .phase .validating, .event .streamIdle] r r₁) :
      Turn r (r₁.fail Generation.cancelledFailure)
  | takesFirst {r₁ : Run} {output : Text}
      (hcontrol : r.control = .idling (.whole none) (.ok output))
      (told : Tells [.event (.stage .finalizing), .phase .validating, .event .streamIdle] r r₁) :
      Turn r (r₁.succeed (r.judge output))
  | asksAgain {r₁ : Run} {output : Text}
      (hcontrol : r.control = .idling (.whole none) (.ok output))
      (told : Tells [.phase .generating, .event .retryClear, .event (.substage .retrying),
        .event (.stage .optimizing), .phase .retrying, .event (.stage .finalizing),
        .phase .validating, .event .streamIdle] r r₁) :
      Turn r (r₁.enter (.whole (some (r.judge output)))
        (r.errandOf r.request.code r.report true none) 1 (r.optionsOf r.request.code))
  | takesSecond {r₁ : Run} {first : Outcome} {result : Except Failure Text}
      (hcontrol : r.control = .idling (.whole (some first)) result)
      (told : Tells [.event (.stage .finalizing), .phase .validating, .event .streamIdle] r r₁)
      (o : Outcome) (ho : o = first ∨ ∃ output, result = .ok output ∧
        (r.judge output).noChange = false ∧ o = { r.judge output with warning := some retryWarning }) :
      Turn r (r₁.succeed o)
  | pauses {r₁ : Run} {p : Parts} {output : Text} {c : Chunk} {later : List Chunk}
      (hcontrol : r.control = .idling (.parts p) (.ok output)) (hlater : p.later = c :: later)
      (told : Tells (.event (.stage .refining) :: (keptMarks (r.partText p output).2 ++
        [.phase .validating, .event .streamIdle])) r r₁) :
      Turn r { r₁ with control := .pausing ⟨c, r.partReport c, later,
        p.outputs ++ [(r.partText p output).1],
        if (r.partText p output).2 then p.kept + 1 else p.kept, p.total⟩ }
  | joins {r₁ : Run} {p : Parts} {output : Text}
      (hcontrol : r.control = .idling (.parts p) (.ok output)) (hlater : p.later = [])
      (told : Tells (.event (.stage .finalizing) :: (keptMarks (r.partText p output).2 ++
        [.phase .validating, .event .streamIdle])) r r₁) (after : Report)
      (hafter : after = Report.ofText (Text.unlines (p.outputs ++ [(r.partText p output).1]))
        r.report.language Chunk.defaultSize) :
      Turn r (r₁.succeed (chunkedOutcome r.request.code
        (Text.unlines (p.outputs ++ [(r.partText p output).1])) r.report after p.total
        (if (r.partText p output).2 then p.kept + 1 else p.kept)))
  | turnsBack {p : Parts} (hcontrol : r.control = .pausing p)
      (hcancelled : r.scene.cancelled = true) : Turn r (r.fail Generation.cancelledFailure)
  | asksPart {r₁ : Run} {p : Parts} (hcontrol : r.control = .pausing p)
      (told : Tells [.event (.substage (.hint r.scene.context.hint)), .phase .generating,
        .event (.chunkProgress (p.chunk.index + 1) p.total)] r r₁) :
      Turn r (r₁.enter (.parts p) (r.errandOf p.chunk.text p.report false p.chunk.context) 0
        (r.optionsOf p.chunk.text))

theorem turn_afterFirst {output : Text} (hcontrol : r.control = .idling (.whole none) (.ok output)) :
    Turn r ((r.tell .streamIdle).afterFirst output) := by
  have htold : Tells [.event (.stage .finalizing), .phase .validating, .event .streamIdle] r
      (((r.tell .streamIdle).phase .validating).tell (.stage .finalizing)) :=
    (((Tells.refl r).tell rfl).phase _).tell rfl
  have hjudge : (((r.tell .streamIdle).phase .validating).tell (.stage .finalizing)).judge output =
      r.judge output := rfl
  unfold afterFirst
  simp only [hjudge]
  split
  · split
    · exact .stops hcontrol htold
    · obtain ⟨r₁, hasked, hask⟩ := exists_ask (((((((r.tell .streamIdle).phase .validating).tell
        (.stage .finalizing)).phase .retrying).tell (.stage .optimizing)).tell
        (.substage .retrying)).tell .retryClear) (.whole (some (r.judge output))) r.request.code
        r.report 1 true none
      have hretrying := (((htold.phase .retrying).tell (e := .stage .optimizing) rfl).tell
        (e := .substage .retrying) rfl).tell (e := .retryClear) rfl
      have hturn := Turn.asksAgain hcontrol (hretrying.trans hasked)
      exact hask ▸ hturn
  · exact .takesFirst hcontrol htold

theorem turn_afterSecond {first : Outcome} {result : Except Failure Text} {output : Option Text}
    (hcontrol : r.control = .idling (.whole (some first)) result)
    (houtput : ∀ t, output = some t → result = .ok t) :
    Turn r ((r.tell .streamIdle).afterSecond first output) := by
  have htold : Tells [.event (.stage .finalizing), .phase .validating, .event .streamIdle] r
      (((r.tell .streamIdle).phase .validating).tell (.stage .finalizing)) :=
    (((Tells.refl r).tell rfl).phase _).tell rfl
  have hjudge : ∀ t, (((r.tell .streamIdle).phase .validating).tell (.stage .finalizing)).judge t =
      r.judge t := fun _ => rfl
  unfold afterSecond
  cases output with
  | none => exact .takesSecond hcontrol htold _ (Or.inl rfl)
  | some t =>
      simp only [hjudge]
      split
      · exact .takesSecond hcontrol htold _ (Or.inl rfl)
      · next hchange =>
          exact .takesSecond hcontrol htold _
            (Or.inr ⟨t, houtput t rfl, by simpa using hchange, rfl⟩)

theorem turn_afterPart {p : Parts} {output : Text}
    (hcontrol : r.control = .idling (.parts p) (.ok output)) :
    Turn r ((r.tell .streamIdle).afterPart p output) := by
  have htext : ((r.tell .streamIdle).phase .validating).partText p output = r.partText p output :=
    rfl
  obtain ⟨r₁, htold, hkept⟩ : ∃ r₁, Tells (keptMarks (r.partText p output).2 ++
      [.phase .validating, .event .streamIdle]) r r₁ ∧
      (if (r.partText p output).2 then
        ((r.tell .streamIdle).phase .validating).tell (.substage .keptChunk)
      else (r.tell .streamIdle).phase .validating) = r₁ := by
    have hvalidating : Tells [.phase .validating, .event .streamIdle] r
        ((r.tell .streamIdle).phase .validating) := ((Tells.refl r).tell rfl).phase _
    cases (r.partText p output).2 with
    | true => exact ⟨_, hvalidating.tell (e := .substage .keptChunk) rfl, rfl⟩
    | false => exact ⟨_, hvalidating, rfl⟩
  unfold afterPart
  simp only [htext, hkept]
  split
  · next hlater =>
      unfold assemble
      simp only
      have hfinal := htold.tell (e := .stage .finalizing) rfl
      rw [show (r₁.tell (.stage .finalizing)).request = r.request from hfinal.quiet.request,
        show (r₁.tell (.stage .finalizing)).report = r.report from hfinal.quiet.report]
      exact .joins hcontrol hlater hfinal _ rfl
  · next c later hlater =>
      have hnext := htold.tell (e := .stage .refining) rfl
      simp only [hnext.quiet.sameTask.partReport c]
      exact .pauses hcontrol hlater hnext

theorem turn_afterLadder {job : Job} {result : Except Failure Text}
    (hcontrol : r.control = .idling job result) : Turn r (r.afterLadder job result) := by
  unfold afterLadder
  simp only
  split
  · exact turn_afterFirst hcontrol
  · refine turn_afterSecond hcontrol fun t ht => ?_
    cases ht
    rfl
  · exact turn_afterSecond hcontrol nofun
  · exact turn_afterPart hcontrol
  · exact .breaks hcontrol ((Tells.refl r).tell rfl)

/-- In front of a chunk a run turns back, or asks for it. -/
theorem askPart_cases (r : Run) (p : Parts) :
    (r.scene.cancelled = true ∧ r.askPart p = r.fail Generation.cancelledFailure) ∨
    (∃ r₁, Tells [.event (.substage (.hint r.scene.context.hint)), .phase .generating,
        .event (.chunkProgress (p.chunk.index + 1) p.total)] r r₁ ∧
      r.askPart p = r₁.enter (.parts p) (r.errandOf p.chunk.text p.report false p.chunk.context) 0
        (r.optionsOf p.chunk.text)) := by
  by_cases hcancelled : r.scene.cancelled = true
  · left
    exact ⟨hcancelled, by rw [askPart, if_pos hcancelled]⟩
  · right
    have htold := (Tells.refl r).tell (e := .chunkProgress (p.chunk.index + 1) p.total) rfl
    obtain ⟨r₁, hasked, hask⟩ := exists_ask (r.tell (.chunkProgress (p.chunk.index + 1) p.total))
      (.parts p) p.chunk.text p.report 0 false p.chunk.context
    have hasked' := htold.trans hasked
    rw [htold.hint] at hasked'
    refine ⟨r₁, hasked', ?_⟩
    rw [askPart, if_neg hcancelled, hask]
    rfl

/-- What a run makes of a signal. -/
inductive Takes (r : Run) : Signal → Run → Prop
  | cancels : Takes r .cancel { r with scene := r.scene.cancel }
  | ticks {job : Job} {l : Ladder} {i : Nat} {s : Scene} (hcontrol : r.control = .asking job l)
      (hs : s = { r.scene with context := r.scene.context.turn hints.length })
      (hi : i = s.context.hint) :
      Takes r .tick { r with scene := s.tell (.substage (.hint i)) }
  | climbs {job : Job} {l l' : Ladder} {s : Scene} {x : Signal}
      (hcontrol : r.control = .asking job l) (hx : x ≠ .cancel)
      (hstep : l.step r.settings r.scene x = (l', s)) (h : l.Climb r.settings r.scene x l' s)
      (hgrows : r.scene.Grows Act.isCalling s) :
      Takes r x (({ r with scene := s } : Run).withLadder job l')
  | turns {r' : Run} (h : Turn r r') : Takes r .resume r'
  | waits (x : Signal) : Takes r x r

/-- **Every step of a run whose host does not fail is one of these.** -/
theorem takes_step (hr : r.scene.Unfailing) (x : Signal) : Takes r x (r.step x) := by
  unfold step
  split
  · exact .cancels
  · next job l hcontrol => exact .ticks hcontrol rfl rfl
  · next job l hcontrol hcancel _ =>
      exact .climbs hcontrol hcancel rfl (Ladder.climb_step r.settings l hr _)
        (Ladder.grows_step _ l _ _)
  · next job result hcontrol => exact .turns (turn_afterLadder hcontrol)
  · next p hcontrol =>
      rcases r.askPart_cases p with ⟨hcancelled, hask⟩ | ⟨r₁, htold, hask⟩
      · rw [hask]
        exact .turns (.turnsBack hcontrol hcancelled)
      · rw [hask]
        exact .turns (.asksPart hcontrol htold)
  · exact .waits _

/-- What a beginning makes of a run whose name is bound. -/
inductive Begins (r : Run) : Run → Prop
  | turnsBack {r₁ : Run} {c d : Chunk} {later : List Chunk}
      (hchunks : Chunk.ofTexts r.report.chunks = c :: d :: later)
      (told : Tells [.event (.stage .optimizing), .phase .chunking,
        .event (.stage .understanding), .phase .analyzing] r r₁) :
      Begins r (r₁.fail Generation.cancelledFailure)
  | asksPart {r₁ : Run} {c d : Chunk} {later : List Chunk} {p : Parts}
      (hchunks : Chunk.ofTexts r.report.chunks = c :: d :: later)
      (hp : p = ⟨c, r.partReport c, d :: later, [], 0, r.report.chunks.length⟩)
      (told : Tells [.event (.substage (.hint r.scene.context.hint)), .phase .generating,
        .event (.chunkProgress (c.index + 1) r.report.chunks.length),
        .event (.stage .optimizing), .phase .chunking,
        .event (.stage .understanding), .phase .analyzing] r r₁) :
      Begins r (r₁.enter (.parts p) (r.errandOf p.chunk.text p.report false p.chunk.context) 0
        (r.optionsOf p.chunk.text))
  | asksWhole {r₁ : Run} (hchunks : (Chunk.ofTexts r.report.chunks).length < 2)
      (told : Tells [.event (.substage (.hint r.scene.context.hint)), .phase .generating,
        .event (.stage .optimizing), .event (.stage .understanding), .phase .analyzing] r r₁) :
      Begins r (r₁.enter (.whole none) (r.errandOf r.request.code r.report false none) 0
        (r.optionsOf r.request.code))

theorem begins_begin (settings : Settings) (name : Text) (request : Request) (host : Host) :
    Begins (opened settings name request host) (begin settings name request host) := by
  have htold := ((Tells.refl (opened settings name request host)).phase .analyzing).tell
    (e := .stage .understanding) rfl
  unfold begin
  simp only
  split
  · next c d later hchunks =>
      have hchunking := (htold.phase .chunking).tell (e := .stage .optimizing) rfl
      have hcases := askPart_cases (((((opened settings name request host).phase .analyzing).tell
        (.stage .understanding)).phase .chunking).tell (.stage .optimizing))
        ⟨c, (opened settings name request host).partReport c, d :: later, [], 0,
          (opened settings name request host).report.chunks.length⟩
      rcases hcases with ⟨-, hask⟩ | ⟨r₁, hasked, hask⟩
      · exact hask ▸ .turnsBack hchunks hchunking
      · rw [hchunking.hint] at hasked
        exact hask ▸ .asksPart hchunks rfl (hchunking.trans hasked)
  · next hfew =>
      have hoptimizing := htold.tell (e := .stage .optimizing) rfl
      obtain ⟨r₁, hasked, hask⟩ := exists_ask ((((opened settings name request host).phase
        .analyzing).tell (.stage .understanding)).tell (.stage .optimizing)) (.whole none)
        request.code (opened settings name request host).report 0 false none
      rw [hoptimizing.hint] at hasked
      have hlength : (Chunk.ofTexts (opened settings name request host).report.chunks).length < 2 := by
        match hchunks : Chunk.ofTexts (opened settings name request host).report.chunks with
        | [] => exact Nat.zero_lt_two
        | [_] => exact Nat.one_lt_two
        | c :: d :: later => exact absurd hchunks (hfew c d later)
      exact hask ▸ .asksWhole hlength (hoptimizing.trans hasked)

/-- While a run asks, its ladder is not over. -/
def Climbing (r : Run) : Prop := ∀ job l, r.control = .asking job l → l.result? = none

theorem climbing_withLadder (r : Run) (job : Job) (l : Ladder) : (r.withLadder job l).Climbing := by
  unfold withLadder
  intro job' l' hcontrol
  split at hcontrol
  · next hresult =>
      cases hcontrol
      exact hresult
  · cases hcontrol

theorem control_fail (r : Run) (why : Failure) : (r.fail why).control = .ended none := rfl

theorem climbing_fail (r : Run) (why : Failure) : (r.fail why).Climbing := by
  intro job l hcontrol
  rw [control_fail] at hcontrol
  cases hcontrol

theorem climbing_succeed (r : Run) (o : Outcome) : (r.succeed o).Climbing := by
  by_cases hcancelled : r.scene.cancelled = true
  · rw [succeed_of_cancelled hcancelled]
    exact climbing_fail r _
  · intro job l hcontrol
    rw [control_succeed (by simpa using hcancelled)] at hcontrol
    cases hcontrol

theorem Turn.climbing {r' : Run} (h : Turn r r') : r'.Climbing := by
  cases h with
  | breaks _ _ => exact climbing_fail _ _
  | stops _ _ => exact climbing_fail _ _
  | takesFirst _ _ => exact climbing_succeed _ _
  | asksAgain _ _ => exact climbing_withLadder _ _ _
  | takesSecond _ _ _ _ => exact climbing_succeed _ _
  | pauses _ _ _ => exact fun job l hcontrol => Control.noConfusion hcontrol
  | joins _ _ _ _ _ => exact climbing_succeed _ _
  | turnsBack _ _ => exact climbing_fail _ _
  | asksPart _ _ => exact climbing_withLadder _ _ _

theorem Climbing.step (h : r.Climbing) (hr : r.scene.Unfailing) (x : Signal) :
    (r.step x).Climbing := by
  have htakes := takes_step hr x
  generalize r.step x = r' at htakes
  cases htakes with
  | cancels => exact h
  | ticks _ _ _ => exact h
  | climbs _ _ _ _ _ => exact climbing_withLadder _ _ _
  | turns hturn => exact hturn.climbing
  | waits => exact h

theorem climbing_begin (settings : Settings) (name : Text) (request : Request) (host : Host) :
    (begin settings name request host).Climbing := by
  have hbegins := begins_begin settings name request host
  generalize begin settings name request host = r at hbegins
  cases hbegins with
  | turnsBack _ _ => exact climbing_fail _ _
  | asksPart _ _ _ => exact climbing_withLadder _ _ _
  | asksWhole _ _ => exact climbing_withLadder _ _ _

end Run
end Refinery
