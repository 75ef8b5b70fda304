import Refinery.Proofs.Chunk.Partition
import Refinery.Proofs.Session.Turn

/-!
What a request is told from its beginning to its end. The events but hints go through the grammar,
and hints come only while a generation is on its way. The invariant follows, for each place where a
run can stand, the parts that are complete and the attempts of the generation at hand.
-/

namespace Refinery

open Grammar

namespace Event

theorem isHint_hint {i : Nat} (h : i < hints.length) :
    (Event.substage (.hint i)).isHint = true := by
  show hints.contains (hints.getD i "") = true
  rw [List.getD_eq_getElem?_getD, List.getElem?_eq_getElem h]
  exact List.contains_iff_mem.2 (List.getElem_mem h)

@[simp] theorem isHint_stage (s : Stage) : (stage s).isHint = false := rfl

@[simp] theorem isHint_retrying : (substage .retrying).isHint = false := by decide

@[simp] theorem isHint_keptChunk : (substage .keptChunk).isHint = false := by decide

@[simp] theorem isHint_chunkProgress (current total : Nat) :
    (chunkProgress current total).isHint = false := rfl

@[simp] theorem isHint_streamIdle : streamIdle.isHint = false := rfl

@[simp] theorem isHint_retryClear : retryClear.isHint = false := rfl

@[simp] theorem isHint_done (o : Outcome) : (done o).isHint = false := rfl

@[simp] theorem isHint_error (m : Text) : (error m).isHint = false := rfl

end Event

namespace Act

/-- The events but hints among some acts. -/
def heard (acts : List Act) : List Event := (events acts).filter fun e => !e.isHint

theorem heard_append (as bs : List Act) : heard (as ++ bs) = heard as ++ heard bs := by
  rw [heard, events_append, List.filter_append, heard, heard]

theorem heard_marks (acts : List Act) : heard (marks acts) = heard acts := by
  rw [heard, events_marks, heard]

theorem heard_map_event {es : List Event} (h : ∀ e ∈ es, e.isHint = false) :
    heard (es.map .event) = es := by
  have hevents : events (es.map .event) = es := by
    rw [events, List.filterMap_map]
    exact List.filterMap_some
  rw [heard, hevents]
  exact List.filter_eq_self.2 fun e he => by rw [h e he]; rfl

@[simp] theorem heard_nil : heard [] = [] := rfl

@[simp] theorem heard_phase (p : Phase) (as : List Act) : heard (.phase p :: as) = heard as := rfl

@[simp] theorem heard_event (e : Event) (as : List Act) :
    heard (.event e :: as) = if e.isHint then heard as else e :: heard as := by
  rw [heard, events_event, List.filter_cons]
  cases e.isHint <;> rfl

/-- The latest generation that was entered has not closed its stream. The acts are newest first. -/
def Generating (acts : List Act) : Prop :=
  ∃ new old, acts = new ++ .phase .generating :: old ∧ .event .streamIdle ∉ new

/-- Hints come only while a generation is on its way. The acts are newest first. -/
def HintsWithin (acts : List Act) : Prop :=
  ∀ new e old, acts = new ++ .event e :: old → e.isHint = true → Generating old

theorem generating_phase (acts : List Act) : Generating (.phase .generating :: acts) :=
  ⟨[], acts, rfl, List.not_mem_nil⟩

variable {acts : List Act} {e : Event}

theorem Generating.append (h : Generating acts) (more : List Act)
    (hmore : .event .streamIdle ∉ more) : Generating (more ++ acts) := by
  obtain ⟨new, old, rfl, hnew⟩ := h
  refine ⟨more ++ new, old, by rw [List.append_assoc], fun hmem => ?_⟩
  exact (List.mem_append.1 hmem).elim hmore hnew

theorem HintsWithin.append (h : HintsWithin acts) (more : List Act)
    (hmore : ∀ e, .event e ∈ more → e.isHint = false) : HintsWithin (more ++ acts) := by
  intro new e old heq hhint
  rcases List.append_eq_append_iff.1 heq with ⟨rest, rfl, hacts⟩ | ⟨rest, hmore', hold⟩
  · exact h _ e old hacts hhint
  · cases rest with
    | nil => exact h [] e old hold.symm hhint
    | cons a rest =>
        rw [List.cons_append, List.cons.injEq] at hold
        have hmem : Act.event e ∈ more := by
          rw [hmore', hold.1]
          exact List.mem_append_right _ List.mem_cons_self
        rw [hmore e hmem] at hhint
        cases hhint

theorem HintsWithin.hint (h : HintsWithin acts) (hgenerating : Generating acts) :
    HintsWithin (.event e :: acts) := by
  intro new e' old heq hhint
  cases new with
  | nil =>
      rw [List.nil_append, List.cons.injEq] at heq
      rwa [← heq.2]
  | cons a new =>
      rw [List.cons_append, List.cons.injEq] at heq
      exact h new e' old heq.2 hhint

end Act

namespace Grammar

theorem Attempts.not_mem_streamIdle {b : Bool} {es : List Event} (h : Attempts b es) :
    .streamIdle ∉ es := by
  induction h with
  | start => exact List.not_mem_nil
  | active _ ih => simpa using ih
  | piece _ _ ih => simpa using ih
  | again _ ih => simpa using ih

theorem Sequence.inOrder {total : Nat} {result : Option Outcome} {es : List Event}
    (h : Sequence total result es) : ∀ e ∈ es, e.InOrder := by
  have hwhole : ∀ (front : List (List Event)) (last : Event), Front total front → last.InOrder →
      ∀ e ∈ .stage .understanding :: front.flatten ++ [last], e.InOrder := by
    intro front last hfront hlast e he
    rcases List.mem_append.1 he with he | he
    · rcases List.mem_cons.1 he with rfl | he
      · exact trivial
      · exact hfront.inOrder e he
    · exact List.mem_singleton.1 he ▸ hlast
  cases h with
  | done h o => exact hwhole _ _ h.front trivial
  | error h hfront m =>
      obtain ⟨rest, rfl⟩ := hfront
      exact hwhole _ _ h.front.of_append trivial

end Grammar

/-! ### Where a run stands -/

/-- The chunks after the one at hand are numbered up to the last of so many. -/
def Parts.Numbered (total : Nat) (p : Parts) : Prop :=
  p.total = total ∧ p.chunk.index + (p.later.length + 1) = total ∧
    p.later.map Chunk.index = List.range' (p.chunk.index + 1) p.later.length

theorem Parts.Numbered.next {total : Nat} {p : Parts} {c : Chunk} {later : List Chunk}
    (h : p.Numbered total) (hlater : p.later = c :: later) (report : Report) (outputs : List Text)
    (kept : Nat) :
    c.index = p.chunk.index + 1 ∧ Parts.Numbered total ⟨c, report, later, outputs, kept, p.total⟩ := by
  obtain ⟨htotal, hlength, hindex⟩ := h
  rw [hlater, List.length_cons] at hlength
  rw [hlater, List.length_cons, List.map_cons, List.range'_succ, List.cons.injEq] at hindex
  obtain ⟨hc, hrest⟩ := hindex
  refine ⟨hc, htotal, ?_, ?_⟩
  · show c.index + (later.length + 1) = total
    omega
  · show later.map Chunk.index = List.range' (c.index + 1) later.length
    rw [hc, hrest]

/-- The parts that come before the generation of a job. -/
def Job.Reached (total : Nat) : Job → List (List Event) → Prop
  | .whole none, front => total < 2 ∧ front = [[.stage .optimizing]]
  | .whole (some _), front => total < 2 ∧ ∃ b, Block b ∧
      front = [[.stage .optimizing], b, [.stage .finalizing], [.stage .optimizing],
        [.substage .retrying], [.retryClear]]
  | .parts p, front => 2 ≤ total ∧ p.Numbered total ∧ ∃ ps, Pieces total p.chunk.index ps ∧
      front = ps ++ [[.stage (if p.chunk.index = 0 then .optimizing else .refining)],
        [.chunkProgress (p.chunk.index + 1) total]]

/-- What was heard, newest first, of a run that stands there. -/
def Control.Story (total : Nat) (heard : List Event) : Control → Prop
  | .asking job l => ∃ front told, job.Reached total front ∧ l.Telling told ∧
      heard = told ++ (.stage .understanding :: front.flatten).reverse
  | .idling job _ => ∃ front told b, job.Reached total front ∧ Attempts b told ∧
      heard = told ++ (.stage .understanding :: front.flatten).reverse
  | .pausing p => 2 ≤ total ∧ p.Numbered total ∧ p.chunk.index ≠ 0 ∧
      ∃ ps, Pieces total p.chunk.index ps ∧
        heard = (Event.stage .understanding :: (ps ++ [[Event.stage .refining]]).flatten).reverse
  | .ended result => Sequence total result heard.reverse

/-- Whether a generation is on its way. -/
def Control.isWriting : Control → Bool
  | .asking .. => true
  | .idling .. => true
  | _ => false

/-- With its generation, what comes before it is the front of a body. -/
theorem Job.Reached.front {total : Nat} {job : Job} {front : List (List Event)} {b : List Event}
    (h : job.Reached total front) (hb : Block b) : Front total (front ++ [b]) := by
  match job, h with
  | .whole none, h =>
      obtain ⟨hfew, rfl⟩ := h
      exact ⟨[[.stage .finalizing]], .whole hfew (.once hb)⟩
  | .whole (some _), h =>
      obtain ⟨hfew, b₁, hb₁, rfl⟩ := h
      exact ⟨[[.stage .finalizing]], .whole hfew (.twice hb₁ hb)⟩
  | .parts p, h =>
      obtain ⟨hmany, ⟨-, hlength, -⟩, ps, hps, rfl⟩ := h
      have hpiece : Piece total p.chunk.index [[.stage (if p.chunk.index = 0 then .optimizing
          else .refining)], [.chunkProgress (p.chunk.index + 1) total], b] :=
        ⟨b, [], hb, Or.inl rfl, rfl⟩
      have hnext := (hps.snoc hpiece).front hmany (by omega)
      simpa using hnext

/-- In front of a chunk, what is complete is the front of a body. -/
theorem Grammar.Pieces.front_refining {total : Nat} {p : Parts} {ps : List (List Event)}
    (h : Pieces total p.chunk.index ps) (hmany : 2 ≤ total) (hnumbered : p.Numbered total)
    (hindex : p.chunk.index ≠ 0) : Front total (ps ++ [[.stage .refining]]) := by
  have hpiece : Piece total p.chunk.index [[.stage (if p.chunk.index = 0 then .optimizing
      else .refining)], [.chunkProgress (p.chunk.index + 1) total], [.streamIdle]] :=
    ⟨_, [], block_idle, Or.inl rfl, rfl⟩
  rw [if_neg hindex] at hpiece
  have hlength := hnumbered.2.1
  have hnext := (h.snoc hpiece).front hmany (by omega)
  rw [← List.singleton_append, ← List.append_assoc] at hnext
  exact hnext.of_append

/-- What was heard can always be gone on with to the end of a sequence. -/
theorem Control.Story.exists_sequence {total : Nat} {heard : List Event} {c : Control}
    (h : c.Story total heard) : ∃ more result, Sequence total result (heard.reverse ++ more) := by
  have hidle : ∀ (job : Job) (front : List (List Event)) (told : List Event) (b : Bool),
      job.Reached total front → Attempts b told →
      heard = told ++ (Event.stage .understanding :: front.flatten).reverse →
      ∃ more result, Sequence total result (heard.reverse ++ more) := by
    intro job front told b hreached htold hheard
    refine ⟨[.streamIdle, .error []], none, ?_⟩
    have hsequence := (hreached.front htold.block).sequence []
    simpa [hheard] using hsequence
  cases c with
  | asking job l =>
      obtain ⟨front, told, hreached, htold, hheard⟩ := h
      obtain ⟨b, hb⟩ := htold.attempts
      exact hidle job front told b hreached hb hheard
  | idling job result =>
      obtain ⟨front, told, b, hreached, htold, hheard⟩ := h
      exact hidle job front told b hreached htold hheard
  | pausing p =>
      obtain ⟨hmany, hnumbered, hindex, ps, hps, rfl⟩ := h
      have hsequence := (hps.front_refining hmany hnumbered hindex).sequence []
      exact ⟨[.error []], none, by simpa using hsequence⟩
  | ended result => exact ⟨[], result, by rwa [List.append_nil]⟩

namespace Run

/-- What was heard of a run is that the text is being understood, and these parts. -/
def Recounts (r : Run) (front : List (List Event)) : Prop :=
  Act.heard r.scene.acts = (.stage .understanding :: front.flatten).reverse

variable {r r' : Run} {total : Nat} {new : List Act} {front : List (List Event)}

theorem Tells.heard (h : Tells new r r') :
    Act.heard r'.scene.acts = Act.heard new ++ Act.heard r.scene.acts := by
  rw [← Act.heard_marks, h.marks, Act.heard_append, Act.heard_marks]

/-- The generation at hand is closed, and more parts follow. -/
theorem Tells.recounts {told : List Event} (h : Tells new r r') (parts : List (List Event))
    (hheard : Act.heard r.scene.acts = told ++ (.stage .understanding :: front.flatten).reverse)
    (hnew : Act.heard new = parts.flatten.reverse ++ [.streamIdle]) :
    Recounts r' (front ++ (told.reverse ++ [.streamIdle]) :: parts) := by
  rw [Recounts, h.heard, hnew, hheard]
  simp

theorem Recounts.tells (h : Recounts r front) (told : Tells new r r') (parts : List (List Event))
    (hnew : Act.heard new = parts.flatten.reverse) : Recounts r' (front ++ parts) := by
  rw [Recounts, told.heard, hnew, h]
  simp

/-- The piece of a chunk is complete when the next stage is told. -/
theorem Tells.exists_pieces {p : Parts} {result : Except Failure Text} {stage : Stage}
    {kept : Bool} (h : Tells (.event (.stage stage) :: (keptMarks kept ++
      [.phase .validating, .event .streamIdle])) r r')
    (hstory : (Control.idling (.parts p) result).Story total (Act.heard r.scene.acts)) :
    2 ≤ total ∧ p.Numbered total ∧ ∃ ps, Pieces total (p.chunk.index + 1) ps ∧
      Recounts r' (ps ++ [[.stage stage]]) := by
  obtain ⟨front, told, b, ⟨hmany, hnumbered, ps, hps, rfl⟩, htold, hheard⟩ := hstory
  cases kept with
  | true =>
      have hpiece : Piece total p.chunk.index _ :=
        ⟨_, [[.substage .keptChunk]], htold.block, Or.inr rfl, rfl⟩
      have hrecounts := h.recounts [[.substage .keptChunk], [.stage stage]] hheard
        (by simp [keptMarks])
      exact ⟨hmany, hnumbered, _, hps.snoc hpiece, by simpa using hrecounts⟩
  | false =>
      have hpiece : Piece total p.chunk.index _ := ⟨_, [], htold.block, Or.inl rfl, rfl⟩
      have hrecounts := h.recounts [[.stage stage]] hheard (by simp [keptMarks])
      exact ⟨hmany, hnumbered, _, hps.snoc hpiece, by simpa using hrecounts⟩

theorem not_isHint_keptMarks (kept : Bool) (stage : Stage) :
    ∀ e, Act.event e ∈ .event (.stage stage) :: (keptMarks kept ++
      [.phase .validating, .event .streamIdle]) → e.isHint = false := by
  cases kept <;> simp [keptMarks]

theorem Recounts.story_fail (h : Recounts r front) (hfront : Front total front) (why : Failure) :
    (r.fail why).control.Story total (Act.heard (r.fail why).scene.acts) := by
  have hheard : Act.heard (r.fail why).scene.acts =
      .error (verdictOn why).2 :: Act.heard r.scene.acts := by
    rw [← Act.heard_marks, marks_fail, Act.heard_event, Act.heard_phase, Act.heard_marks]
    rfl
  show Sequence total none _
  rw [hheard, h]
  simpa using hfront.sequence (verdictOn why).2

theorem Recounts.story_succeed (h : Recounts r front) (hbody : Body total front) (o : Outcome) :
    (r.succeed o).control.Story total (Act.heard (r.succeed o).scene.acts) := by
  by_cases hcancelled : r.scene.cancelled = true
  · rw [succeed_of_cancelled hcancelled]
    exact h.story_fail hbody.front _
  · have hgoing : r.scene.cancelled = false := by simpa using hcancelled
    have hheard : Act.heard (r.succeed o).scene.acts = .done o :: Act.heard r.scene.acts := by
      rw [← Act.heard_marks, marks_succeed hgoing, Act.heard_event, Act.heard_phase,
        Act.heard_marks]
      rfl
    rw [control_succeed hgoing, hheard, h]
    show Sequence total (some o) _
    simpa using Sequence.done hbody o

theorem Recounts.story_enter {job : Job} (h : Recounts r front) (hreached : job.Reached total front)
    (e : Errand) (level : Int) (options : SamplingOptions) :
    (r.enter job e level options).control.Story total
      (Act.heard (r.enter job e level options).scene.acts) := by
  rw [scene_enter]
  by_cases hcancelled : r.scene.cancelled = true
  · rw [enter_of_cancelled job e level options hcancelled]
    exact ⟨front, [], false, hreached, .start, h⟩
  · rw [enter_of_going job e level options (by simpa using hcancelled)]
    exact ⟨front, [], hreached, ⟨.start, fun _ => rfl⟩, h⟩

/-! ### Steps -/

theorem host_fail (r : Run) (why : Failure) : (r.fail why).scene.host = r.scene.host :=
  Scene.host_emit _ _

theorem hint_fail (r : Run) (why : Failure) :
    (r.fail why).scene.context.hint = r.scene.context.hint := Scene.hint_emit _ _

/-- Hints have come only within generations, and there will be one to show. -/
structure Minded (r : Run) : Prop where
  unfailing : r.scene.Unfailing
  hint : r.scene.context.hint < hints.length
  within : Act.HintsWithin (Act.marks r.scene.acts)

/-- What a run has told so far. -/
structure Tale (total : Nat) (r : Run) : Prop extends Minded r where
  story : r.control.Story total (Act.heard r.scene.acts)
  generating : r.control.isWriting = true → Act.Generating (Act.marks r.scene.acts)

theorem Minded.tells (h : Minded r) (told : Tells new r r')
    (hwithin : Act.HintsWithin (new ++ Act.marks r.scene.acts)) : Minded r' where
  unfailing := told.unfailing h.unfailing
  hint := told.hint ▸ h.hint
  within := told.marks ▸ hwithin

theorem Minded.fail (h : Minded r) (why : Failure) : Minded (r.fail why) where
  unfailing := Scene.unfailing_congr h.unfailing (host_fail r why)
  hint := hint_fail r why ▸ h.hint
  within := by
    rw [marks_fail]
    exact h.within.append [.event _, .phase _] (by simp [Event.isHint])

theorem Minded.succeed (h : Minded r) (o : Outcome) : Minded (r.succeed o) := by
  by_cases hcancelled : r.scene.cancelled = true
  · rw [succeed_of_cancelled hcancelled]
    exact h.fail _
  · have hgoing : r.scene.cancelled = false := by simpa using hcancelled
    have hwithin := h.within.append [.event (.done o), .phase .done]
      (by simp [Event.isHint])
    refine ⟨?_, ?_, by rw [marks_succeed hgoing]; exact hwithin⟩
    · rw [Run.succeed, if_neg hcancelled]
      exact Scene.unfailing_congr h.unfailing (Scene.host_emit _ _)
    · rw [Run.succeed, if_neg hcancelled]
      exact (Scene.hint_emit _ _).symm ▸ h.hint

theorem Minded.tale_fail (h : Minded r) (hrecounts : Recounts r front) (hfront : Front total front)
    (why : Failure) : Tale total (r.fail why) :=
  ⟨h.fail why, hrecounts.story_fail hfront why, nofun⟩

theorem Minded.tale_succeed (h : Minded r) (hrecounts : Recounts r front)
    (hbody : Body total front) (o : Outcome) : Tale total (r.succeed o) := by
  refine ⟨h.succeed o, hrecounts.story_succeed hbody o, fun hwriting => ?_⟩
  rcases place_succeed r o with hplace | hplace
  · cases hc : (r.succeed o).control <;> simp [hc, Control.place, Control.isWriting] at hplace hwriting
  · cases hc : (r.succeed o).control <;> simp [hc, Control.place, Control.isWriting] at hplace hwriting

theorem Minded.congr_scene (h : Minded r) (hscene : r'.scene = r.scene) : Minded r' where
  unfailing := hscene ▸ h.unfailing
  hint := hscene ▸ h.hint
  within := hscene ▸ h.within

theorem Minded.tale_enter {job : Job} (h : Minded r) (hrecounts : Recounts r front)
    (hreached : job.Reached total front) (hgenerating : Act.Generating (Act.marks r.scene.acts))
    (e : Errand) (level : Int) (options : SamplingOptions) :
    Tale total (r.enter job e level options) where
  toMinded := h.congr_scene (scene_enter job e level options r)
  story := hrecounts.story_enter hreached e level options
  generating _ := by
    rw [scene_enter]
    exact hgenerating

theorem Tale.story_of_control {c : Control} (h : Tale total r) (hcontrol : r.control = c) :
    c.Story total (Act.heard r.scene.acts) := by
  rw [← hcontrol]
  exact h.story

/-- The body is complete once a text without parts is finalized. -/
theorem Tale.exists_body {r₁ : Run} {first : Option Outcome} {result : Except Failure Text}
    (h : Tale total r) (hcontrol : r.control = .idling (.whole first) result)
    (told : Tells [.event (.stage .finalizing), .phase .validating, .event .streamIdle] r r₁) :
    Minded r₁ ∧ ∃ front, Body total front ∧ Recounts r₁ front := by
  obtain ⟨front, attempts, b, hreached, hattempts, hheard⟩ := h.story_of_control hcontrol
  have hminded := h.tells told (h.within.append _ (by simp))
  have hrecounts := told.recounts [[.stage .finalizing]] hheard rfl
  cases first with
  | none =>
      obtain ⟨hfew, rfl⟩ := hreached
      exact ⟨hminded, _, .whole hfew (.once hattempts.block), hrecounts⟩
  | some o =>
      obtain ⟨hfew, b₁, hb₁, rfl⟩ := hreached
      exact ⟨hminded, _, .whole hfew (.twice hb₁ hattempts.block), hrecounts⟩

theorem Tale.breaks {r₁ : Run} {job : Job} {why : Failure} (h : Tale total r)
    (hcontrol : r.control = .idling job (.error why)) (told : Tells [.event .streamIdle] r r₁) :
    Tale total (r₁.fail why) := by
  obtain ⟨front, attempts, b, hreached, hattempts, hheard⟩ := h.story_of_control hcontrol
  have hminded := h.tells told (h.within.append _ (by simp))
  have hrecounts := told.recounts [] hheard rfl
  exact hminded.tale_fail hrecounts (hreached.front hattempts.block) why

theorem Tale.asksAgain {r₁ : Run} {output : Text} (h : Tale total r)
    (hcontrol : r.control = .idling (.whole none) (.ok output))
    (told : Tells [.phase .generating, .event .retryClear, .event (.substage .retrying),
      .event (.stage .optimizing), .phase .retrying, .event (.stage .finalizing),
      .phase .validating, .event .streamIdle] r r₁)
    (e : Errand) (level : Int) (options : SamplingOptions) :
    Tale total (r₁.enter (.whole (some (r.judge output))) e level options) := by
  obtain ⟨front, attempts, b, ⟨hfew, rfl⟩, hattempts, hheard⟩ := h.story_of_control hcontrol
  have hminded := h.tells told (h.within.append _ (by simp))
  have hrecounts := told.recounts [[.stage .finalizing], [.stage .optimizing],
    [.substage .retrying], [.retryClear]] hheard (by simp)
  have hreached : Job.Reached total (.whole (some (r.judge output))) _ :=
    ⟨hfew, _, hattempts.block, rfl⟩
  refine hminded.tale_enter hrecounts hreached ?_ e level options
  rw [told.marks]
  exact Act.generating_phase _

theorem Tale.pauses {r₁ : Run} {p : Parts} {output : Text} {c : Chunk} {later : List Chunk}
    {kept : Bool} (h : Tale total r) (hcontrol : r.control = .idling (.parts p) (.ok output))
    (hlater : p.later = c :: later)
    (told : Tells (.event (.stage .refining) :: (keptMarks kept ++
      [.phase .validating, .event .streamIdle])) r r₁)
    (report : Report) (outputs : List Text) (count : Nat) :
    Tale total { r₁ with control := .pausing ⟨c, report, later, outputs, count, p.total⟩ } := by
  obtain ⟨hmany, hnumbered, ps, hps, hrecounts⟩ := told.exists_pieces (h.story_of_control hcontrol)
  obtain ⟨hindex, hnext⟩ := hnumbered.next hlater report outputs count
  have hminded := h.tells told (h.within.append _ (not_isHint_keptMarks _ _))
  have hps' : Pieces total c.index ps := hindex ▸ hps
  exact ⟨hminded.congr_scene rfl,
    ⟨hmany, hnext, by rw [hindex]; exact Nat.succ_ne_zero _, ps, hps', hrecounts⟩, nofun⟩

theorem Tale.joins {r₁ : Run} {p : Parts} {output : Text} {kept : Bool} (h : Tale total r)
    (hcontrol : r.control = .idling (.parts p) (.ok output)) (hlater : p.later = [])
    (told : Tells (.event (.stage .finalizing) :: (keptMarks kept ++
      [.phase .validating, .event .streamIdle])) r r₁) (o : Outcome) :
    Tale total (r₁.succeed o) := by
  obtain ⟨hmany, ⟨-, hlength, -⟩, ps, hps, hrecounts⟩ := told.exists_pieces (h.story_of_control hcontrol)
  rw [hlater] at hlength
  have hminded := h.tells told (h.within.append _ (not_isHint_keptMarks _ _))
  have hall : Pieces total total ps := hlength ▸ hps
  exact hminded.tale_succeed hrecounts (.pieces hmany hall) o

theorem Tale.turnsBack {p : Parts} (h : Tale total r) (hcontrol : r.control = .pausing p)
    (why : Failure) : Tale total (r.fail why) := by
  obtain ⟨hmany, hnumbered, hindex, ps, hps, hheard⟩ := h.story_of_control hcontrol
  exact h.toMinded.tale_fail hheard (hps.front_refining hmany hnumbered hindex) why

/-- The hint of the next chunk is told after its progress, within the generation. -/
theorem Tale.asksPart {r₁ : Run} {p : Parts} (h : Tale total r)
    (hcontrol : r.control = .pausing p)
    (told : Tells [.event (.substage (.hint r.scene.context.hint)), .phase .generating,
      .event (.chunkProgress (p.chunk.index + 1) p.total)] r r₁)
    (e : Errand) (level : Int) (options : SamplingOptions) :
    Tale total (r₁.enter (.parts p) e level options) := by
  obtain ⟨hmany, hnumbered, hindex, ps, hps, hheard⟩ := h.story_of_control hcontrol
  have hprogress := h.within.append [.phase .generating,
    .event (.chunkProgress (p.chunk.index + 1) p.total)] (by simp)
  have hminded := h.tells told (hprogress.hint (Act.generating_phase _))
  have hheard' : Recounts r (ps ++ [[.stage .refining]]) := hheard
  have hrecounts := hheard'.tells told [[.chunkProgress (p.chunk.index + 1) p.total]]
    (by simp [Event.isHint_hint h.hint])
  have hreached : Job.Reached total (.parts p) (ps ++ [[.stage .refining]] ++
      [[.chunkProgress (p.chunk.index + 1) p.total]]) := by
    refine ⟨hmany, hnumbered, ps, hps, ?_⟩
    rw [if_neg hindex, hnumbered.1, List.append_assoc]
    rfl
  refine hminded.tale_enter hrecounts hreached ?_ e level options
  rw [told.marks]
  exact (Act.generating_phase _).append [.event (.substage (.hint r.scene.context.hint))] (by simp)

/-- After the generation of a job a run ends, asks again, or goes to the next chunk. -/
theorem Tale.turn (h : Tale total r) (hturn : Turn r r') : Tale total r' := by
  cases hturn with
  | breaks hcontrol told => exact h.breaks hcontrol told
  | stops hcontrol told =>
      obtain ⟨hminded, front, hbody, hrecounts⟩ := h.exists_body hcontrol told
      exact hminded.tale_fail hrecounts hbody.front _
  | takesFirst hcontrol told =>
      obtain ⟨hminded, front, hbody, hrecounts⟩ := h.exists_body hcontrol told
      exact hminded.tale_succeed hrecounts hbody _
  | asksAgain hcontrol told => exact h.asksAgain hcontrol told _ _ _
  | takesSecond hcontrol told o =>
      obtain ⟨hminded, front, hbody, hrecounts⟩ := h.exists_body hcontrol told
      exact hminded.tale_succeed hrecounts hbody o
  | pauses hcontrol hlater told => exact h.pauses hcontrol hlater told _ _ _
  | joins hcontrol hlater told => exact h.joins hcontrol hlater told _
  | turnsBack hcontrol _ => exact h.turnsBack hcontrol _
  | asksPart hcontrol told => exact h.asksPart hcontrol told _ _ _

theorem Tale.cancels (h : Tale total r) : Tale total { r with scene := r.scene.cancel } where
  unfailing := Scene.unfailing_congr h.unfailing (Scene.host_cancel _)
  hint := (Scene.hint_cancel r.scene).symm ▸ h.hint
  within := (Scene.marks_cancel r.scene).symm ▸ h.within
  story := by
    rw [← Act.heard_marks]
    show r.control.Story total (Act.heard (Act.marks r.scene.cancel.acts))
    rw [Scene.marks_cancel, Act.heard_marks]
    exact h.story
  generating hwriting := (Scene.marks_cancel r.scene).symm ▸ h.generating hwriting

/-- A hint is shown while the reader waits. -/
theorem Tale.ticks {job : Job} {l : Ladder} {i : Nat} {s : Scene} (h : Tale total r)
    (hcontrol : r.control = .asking job l)
    (hs : s = { r.scene with context := r.scene.context.turn hints.length })
    (hi : i = s.context.hint) : Tale total { r with scene := s.tell (.substage (.hint i)) } := by
  have hacts : s.acts = r.scene.acts := by rw [hs]
  have hhost : s.host = r.scene.host := by rw [hs]
  have hlt : i < hints.length := by
    rw [hi, hs]
    exact Nat.mod_lt _ (by decide)
  have hgenerating := h.generating (by rw [hcontrol]; rfl)
  have hmarks : Act.marks (s.tell (.substage (.hint i))).acts =
      .event (.substage (.hint i)) :: Act.marks r.scene.acts := by
    rw [Scene.marks_tell, hacts]
  have hheard : Act.heard (s.tell (.substage (.hint i))).acts = Act.heard r.scene.acts := by
    rw [← Act.heard_marks, hmarks, Act.heard_event, if_pos (Event.isHint_hint hlt),
      Act.heard_marks]
  have hminded : Minded { r with scene := s.tell (.substage (.hint i)) } := by
    refine ⟨Scene.unfailing_congr h.unfailing ((Scene.host_emit s _).trans hhost), ?_, ?_⟩
    · exact (Scene.hint_emit s _).symm ▸ hi ▸ hlt
    · exact hmarks.symm ▸ h.within.hint hgenerating
  refine ⟨hminded, hheard.symm ▸ h.story, fun _ => ?_⟩
  exact hmarks.symm ▸ hgenerating.append [.event (.substage (.hint i))] (by simp)

/-- Where a run stands after a step of its ladder is told with the attempts of the ladder. -/
theorem story_withLadder (r : Run) {job : Job} {l : Ladder} {told : List Event}
    (hreached : job.Reached total front) (htold : l.Telling told)
    (hheard : Act.heard r.scene.acts =
      told ++ (.stage .understanding :: front.flatten).reverse) :
    (r.withLadder job l).control.Story total (Act.heard r.scene.acts) := by
  unfold withLadder
  cases l.result? with
  | none => exact ⟨front, told, hreached, htold, hheard⟩
  | some result =>
      obtain ⟨b, hattempts⟩ := htold.attempts
      exact ⟨front, told, b, hreached, hattempts, hheard⟩

/-- Nothing a ladder shows is a hint, so its generation stays the one at hand. -/
theorem Minded.climbs {s : Scene} {es : List Event} (h : Minded r)
    (hgrows : r.scene.Grows Act.isCalling s)
    (hmarks : Act.marks s.acts = es.map .event ++ Act.marks r.scene.acts)
    (hshown : ∀ e ∈ es, e.isHint = false) : Minded { r with scene := s } where
  unfailing := Scene.unfailing_congr h.unfailing hgrows.host_eq
  hint := hgrows.hint_lt h.hint
  within := by
    show Act.HintsWithin (Act.marks s.acts)
    rw [hmarks]
    refine h.within.append _ fun e he => ?_
    obtain ⟨e', he', heq⟩ := List.mem_map.1 he
    cases heq
    exact hshown e he'

theorem Tale.climbs {job : Job} {l l' : Ladder} {s : Scene} {x : Signal} (h : Tale total r)
    (hcontrol : r.control = .asking job l) (hclimb : l.Climb r.settings r.scene x l' s)
    (hgrows : r.scene.Grows Act.isCalling s) :
    Tale total (({ r with scene := s } : Run).withLadder job l') := by
  obtain ⟨front, told, hreached, htold, hheard⟩ := h.story_of_control hcontrol
  obtain ⟨es, hmarks, hshown, htelling⟩ := hclimb.exists_told
  have htold' := htelling told htold
  obtain ⟨b, hattempts⟩ := htold'.attempts
  have hheard' : Act.heard s.acts =
      es ++ told ++ (.stage .understanding :: front.flatten).reverse := by
    rw [← Act.heard_marks, hmarks, Act.heard_append, Act.heard_map_event hshown,
      Act.heard_marks, hheard, List.append_assoc]
  have hidle : .event .streamIdle ∉ es.map Act.event := by
    intro hmem
    obtain ⟨e, he, heq⟩ := List.mem_map.1 hmem
    cases heq
    exact hattempts.not_mem_streamIdle (List.mem_append_left _ he)
  have hminded := h.toMinded.climbs hgrows hmarks hshown
  refine ⟨hminded.congr_scene (scene_withLadder _ job l'), ?_, fun _ => ?_⟩
  · rw [scene_withLadder]
    exact story_withLadder _ hreached htold' hheard'
  · rw [scene_withLadder]
    show Act.Generating (Act.marks s.acts)
    rw [hmarks]
    exact (h.generating (by rw [hcontrol]; rfl)).append _ hidle

/-- **One step preserves it.** -/
theorem Tale.takes {x : Signal} (h : Tale total r) (htakes : Takes r x r') : Tale total r' := by
  cases htakes with
  | cancels => exact h.cancels
  | ticks hcontrol hs hi => exact h.ticks hcontrol hs hi
  | climbs hcontrol _ _ hclimb hgrows => exact h.climbs hcontrol hclimb hgrows
  | turns hturn => exact h.turn hturn
  | waits _ => exact h

theorem minded_opened (settings : Settings) (name : Text) (request : Request) (host : Host) :
    Minded (opened settings name request host) := by
  have hmarks : Act.marks (opened settings name request host).scene.acts = [] := rfl
  refine ⟨Scene.unfailing_shielded (opened settings name request host).scene host, ?_,
    fun new e old heq => ?_⟩
  · show 0 < hints.length
    decide
  · rw [hmarks] at heq
    exact absurd heq.symm (by simp)

/-- In front of the first chunk nothing is complete but the stage. -/
theorem reached_first {texts : List Text} {c d : Chunk} {later : List Chunk}
    (hchunks : Chunk.ofTexts texts = c :: d :: later) (report : Report) :
    Job.Reached texts.length (.parts ⟨c, report, d :: later, [], 0, texts.length⟩)
      ([[.stage .optimizing]] ++ [[.chunkProgress (c.index + 1) texts.length]]) := by
  have hlength := Chunk.length_ofTexts texts
  rw [hchunks, List.length_cons] at hlength
  have hindex := Chunk.map_index_ofTextsFrom 0 texts
  rw [← hlength, show Chunk.ofTextsFrom 0 texts = c :: d :: later from hchunks, List.map_cons,
    List.range'_succ, List.cons.injEq] at hindex
  obtain ⟨hc, hlater⟩ := hindex
  have hnumbered : Parts.Numbered texts.length ⟨c, report, d :: later, [], 0, texts.length⟩ := by
    refine ⟨rfl, ?_, ?_⟩
    · show c.index + ((d :: later).length + 1) = texts.length
      omega
    · show (d :: later).map Chunk.index = List.range' (c.index + 1) (d :: later).length
      rw [hc, hlater]
  have hnil : Pieces texts.length c.index [] := hc ▸ .nil
  refine ⟨?_, hnumbered, [], hnil, ?_⟩
  · rw [← hlength, List.length_cons]
    omega
  · simp [hc]

theorem Begins.tale (h : Begins r r') (hr : Minded r) (hsilent : Act.heard r.scene.acts = []) :
    Tale r.report.chunks.length r' := by
  have hrecounts : ∀ {r₁ : Run} {new : List Act} {front : List (List Event)}, Tells new r r₁ →
      Act.heard new = (.stage .understanding :: front.flatten).reverse → Recounts r₁ front := by
    intro r₁ new front told hnew
    rw [Recounts, told.heard, hsilent, hnew, List.append_nil]
  cases h with
  | @turnsBack r₁ c d later hchunks told =>
      have hminded := hr.tells told (hr.within.append _ (by simp))
      have hfront := (reached_first hchunks (r.partReport c)).front block_idle
      exact hminded.tale_fail (hrecounts told rfl) hfront.of_append.of_append _
  | @asksPart r₁ c d later p hchunks hp told =>
      subst hp
      have hoptimizing := hr.within.append [.phase .generating,
        .event (.chunkProgress (c.index + 1) r.report.chunks.length), .event (.stage .optimizing),
        .phase .chunking, .event (.stage .understanding), .phase .analyzing] (by simp)
      have hminded := hr.tells told (hoptimizing.hint (Act.generating_phase _))
      have hreached := reached_first hchunks (r.partReport c)
      refine hminded.tale_enter (hrecounts told (by simp [Event.isHint_hint hr.hint])) hreached ?_
        _ _ _
      rw [told.marks]
      exact (Act.generating_phase _).append [.event (.substage (.hint r.scene.context.hint))]
        (by simp)
  | @asksWhole r₁ hfew told =>
      have hoptimizing := hr.within.append [.phase .generating, .event (.stage .optimizing),
        .event (.stage .understanding), .phase .analyzing] (by simp)
      have hminded := hr.tells told (hoptimizing.hint (Act.generating_phase _))
      have hreached : Job.Reached r.report.chunks.length (.whole none) [[.stage .optimizing]] :=
        ⟨Chunk.length_ofTexts r.report.chunks ▸ hfew, rfl⟩
      refine hminded.tale_enter (hrecounts told (by simp [Event.isHint_hint hr.hint])) hreached ?_
        _ _ _
      rw [told.marks]
      exact (Act.generating_phase _).append [.event (.substage (.hint r.scene.context.hint))]
        (by simp)

theorem tale_begin (settings : Settings) (name : Text) (request : Request) (host : Host) :
    Tale (Chunk.split request.code settings.chunkSize).length
      (begin settings name request host) :=
  (begins_begin settings name request host).tale (minded_opened settings name request host) rfl

/-- **It holds at every time.** -/
theorem tale_after_begin (settings : Settings) (name : Text) (request : Request) (host : Host)
    (xs : List Signal) : Tale (Chunk.split request.code settings.chunkSize).length
      ((begin settings name request host).after xs) :=
  after_induction xs (tale_begin settings name request host)
    fun _ x h => h.takes (takes_step h.unfailing x)

/-- **The events of a request come in the order of the grammar**, whatever the engine does and
whenever the request is cancelled: all of them once it is over, and before that they can be gone on
with. Each is written as the rules want it, and hints come only from the time that a generation is
entered until its stream is closed. -/
theorem events_in_sequence (settings : Settings) (name : Text) (request : Request) (host : Host)
    (xs : List Signal) :
    let r := (begin settings name request host).after xs
    let total := (Chunk.split request.code settings.chunkSize).length
    let events := Act.events r.scene.acts.reverse
    let heard := events.filter fun e => !e.isHint
    (r.isOver = true → Sequence total r.outcome? heard) ∧
    (r.isOver = false → ∃ more result, Sequence total result (heard ++ more)) ∧
    (∀ e ∈ events, Notice.isValid e.toJson = .ok true) ∧
    Act.HintsWithin (Act.marks r.scene.acts) := by
  intro r total events heard
  have htale : Tale total r := tale_after_begin settings name request host xs
  have hheard : (Act.heard r.scene.acts).reverse = heard := by
    simp only [heard, events, Act.heard, Act.events, List.filterMap_reverse, List.filter_reverse]
  obtain ⟨more, result, hsequence⟩ := htale.story.exists_sequence
  rw [hheard] at hsequence
  refine ⟨fun hover => ?_, fun _ => ⟨more, result, hsequence⟩, fun e he => ?_, htale.within⟩
  · have hstory := htale.story
    obtain ⟨o, hplace⟩ := isOver_iff.1 hover
    cases hcontrol : r.control with
    | ended o' =>
        rw [hcontrol] at hstory
        have houtcome : r.outcome? = o' := by rw [outcome?, hcontrol]
        rw [houtcome, ← hheard]
        exact hstory
    | _ =>
        rw [hcontrol] at hplace
        cases hplace
  · apply Event.isValid_toJson
    cases hhint : e.isHint with
    | true =>
        cases e with
        | substage s => exact trivial
        | _ => cases hhint
    | false =>
        have hmem : e ∈ heard := List.mem_filter.2 ⟨he, by rw [hhint]; rfl⟩
        exact hsequence.inOrder e (List.mem_append_left _ hmem)

/-- The first of two chunks is answered; the request is cancelled while the second one is. -/
theorem events_of_cancelled_chunk :
    let request : Request := { code := "count = first(items)\nb = 2".toList, code_filled := by decide }
    let signals : List Signal :=
      [.resume, .opened, .token (.text "count = first(items)".toList), .ended, .settled, .resume,
        .resume, .resume, .resume, .resume, .opened, .tick, .token (.text "b".toList), .cancel,
        .resume, .resume, .resume]
    let r := (begin { chunkSize := 12 } [] request fun _ => .pass).after signals
    r.isOver = true ∧ r.outcome?.isNone = true ∧
      Sequence 2 r.outcome? ((Act.events r.scene.acts.reverse).filter fun e => !e.isHint) := by
  intro request signals r
  have hr : (begin { chunkSize := 12 } [] request fun _ => .pass).after signals = r := rfl
  have hover : r.isOver = true := by decide +kernel
  have hnone : r.outcome?.isNone = true := by decide +kernel
  have htotal : (Chunk.split request.code 12).length = 2 := by decide +kernel
  have hspec := events_in_sequence { chunkSize := 12 } [] request (fun _ => .pass) signals
  simp only [hr, htotal] at hspec
  clear_value r
  exact ⟨hover, hnone, hspec.1 hover⟩

end Run
end Refinery
