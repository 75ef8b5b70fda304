import Refinery.Proofs.Session.Ladder
import Refinery.Session.Run

/-!
What one step of a run can do. Most steps stay at the job at hand and only add plain acts to the
scene; the others end the run, ask for the whole text once more, or go on to the next chunk. All
that is proved of whole runs goes by cases on `Run.Advance`.
-/

namespace Refinery

/-- How far a run is: at a job, or over. -/
inductive Place where
  | on (job : Job)
  | ended (outcome : Option Outcome)

def Control.place : Control → Place
  | .asking job _ => .on job
  | .idling job _ => .on job
  | .pausing p => .on (.parts p)
  | .ended o => .ended o

private theorem isPlain_stop (n : Nat) : (Act.stop n).isPlain = true := rfl

namespace Run

open Scene

theorem outcome?_eq_some_iff {r : Run} {o : Outcome} :
    r.outcome? = some o ↔ r.control.place = .ended (some o) := by
  unfold outcome? Control.place
  cases r.control <;> simp

theorem isOver_iff {r : Run} : r.isOver = true ↔ ∃ o, r.control.place = .ended o := by
  unfold isOver Control.place
  cases r.control <;> simp

/-- `r'` is `r` after some more plain acts; where it is does not count. -/
structure Quiet (r r' : Run) : Prop where
  settings : r'.settings = r.settings
  request : r'.request = r.request
  report : r'.report = r.report
  scene : r.scene.Grows Act.isPlain r'.scene

theorem Quiet.refl (r : Run) : Quiet r r := ⟨rfl, rfl, rfl, .refl⟩

theorem Quiet.trans {r r' r'' : Run} (h : Quiet r r') (h' : Quiet r' r'') : Quiet r r'' :=
  ⟨h'.settings.trans h.settings, h'.request.trans h.request, h'.report.trans h.report,
    h.scene.trans h'.scene⟩

theorem quiet_of_grows {r : Run} {s : Scene} (h : r.scene.Grows Act.isPlain s) :
    Quiet r { r with scene := s } := ⟨rfl, rfl, rfl, h⟩

theorem quiet_tell {e : Event} (r : Run) (he : e.isTerminal = false) : Quiet r (r.tell e) :=
  quiet_of_grows (grows_tell isPlain_stop r.scene (by simp [Act.isPlain, he]))

theorem quiet_phase (r : Run) (p : Phase) : Quiet r (r.phase p) :=
  quiet_of_grows (grows_act r.scene rfl rfl)

theorem quiet_control (r : Run) (c : Control) : Quiet r { r with control := c } :=
  ⟨rfl, rfl, rfl, .refl⟩

theorem quiet_withLadder (r : Run) (job : Job) (l : Ladder) : Quiet r (r.withLadder job l) := by
  unfold withLadder
  split <;> exact quiet_control r _

theorem place_withLadder (r : Run) (job : Job) (l : Ladder) :
    (r.withLadder job l).control.place = .on job := by
  unfold withLadder
  split <;> rfl

section Ask

variable (r : Run) (job : Job) (code : Text) (report : Report) (level : Int) (insist : Bool)
  (context : Option Text)

theorem quiet_ask : Quiet r (r.ask job code report level insist context) := by
  unfold ask
  cases insist with
  | true => exact (quiet_phase r .generating).trans (quiet_withLadder _ job _)
  | false =>
      exact ((quiet_phase r .generating).trans (quiet_tell _ rfl)).trans (quiet_withLadder _ job _)

theorem place_ask : (r.ask job code report level insist context).control.place = .on job :=
  place_withLadder _ job _

end Ask

/-- What a run was given. -/
def SameTask (r r' : Run) : Prop :=
  r'.settings = r.settings ∧ r'.request = r.request ∧ r'.report = r.report

namespace SameTask

variable {r r' r'' : Run}

theorem trans (h : SameTask r r') (h' : SameTask r' r'') : SameTask r r'' :=
  ⟨h'.1.trans h.1, h'.2.1.trans h.2.1, h'.2.2.trans h.2.2⟩

theorem judge (h : SameTask r r') (output : Text) : r'.judge output = r.judge output := by
  rw [Run.judge, Run.judge, h.2.1, h.2.2]

theorem partReport (h : SameTask r r') (c : Chunk) : r'.partReport c = r.partReport c := by
  rw [Run.partReport, Run.partReport, h.2.2]

theorem partText (h : SameTask r r') (p : Parts) (output : Text) :
    r'.partText p output = r.partText p output := by
  unfold Run.partText
  rw [h.2.2]

end SameTask

theorem Quiet.sameTask {r r' : Run} (h : Quiet r r') : SameTask r r' :=
  ⟨h.settings, h.request, h.report⟩

/-- What one step can make of a run. -/
inductive Advance (r : Run) : Run → Prop
  | stays {r' : Run} (quiet : Quiet r r') (place : r'.control.place = r.control.place) :
      Advance r r'
  | fails {r' : Run} {job : Job} (quiet : Quiet r r') (place : r.control.place = .on job)
      (why : Failure) : Advance r (r'.fail why)
  | takesFirst {r' : Run} (quiet : Quiet r r') (place : r.control.place = .on (.whole none))
      (output : Text) : Advance r (r'.succeed (r.judge output))
  | asksAgain {r' : Run} (quiet : Quiet r r') (place : r.control.place = .on (.whole none))
      (output : Text) (place' : r'.control.place = .on (.whole (some (r.judge output)))) :
      Advance r r'
  | keepsFirst {r' : Run} {first : Outcome} (quiet : Quiet r r')
      (place : r.control.place = .on (.whole (some first))) : Advance r (r'.succeed first)
  | takesSecond {r' : Run} {first : Outcome} (quiet : Quiet r r')
      (place : r.control.place = .on (.whole (some first))) (output : Text) :
      Advance r (r'.succeed { r.judge output with warning := some retryWarning })
  | goesOn {r' : Run} {p : Parts} {c : Chunk} {later : List Chunk} (quiet : Quiet r r')
      (place : r.control.place = .on (.parts p)) (hlater : p.later = c :: later) (output : Text)
      (kept : Nat) (place' : r'.control.place = .on (.parts ⟨c, r.partReport c, later,
        p.outputs ++ [(r.partText p output).1], kept, p.total⟩)) : Advance r r'
  | joins {r' : Run} {p : Parts} (quiet : Quiet r r') (place : r.control.place = .on (.parts p))
      (hlater : p.later = []) (output : Text) (kept : Nat) (after : Report) :
      Advance r (r'.succeed (chunkedOutcome r.request.code
        (Text.unlines (p.outputs ++ [(r.partText p output).1])) r.report after p.total kept))

/-- Before a step some plain acts may come that leave the run where it is. -/
theorem Advance.of_quiet {r r₁ r' : Run} (h : Advance r₁ r') (hquiet : Quiet r r₁)
    (hplace : r₁.control.place = r.control.place) : Advance r r' := by
  have hsame := hquiet.sameTask
  cases h with
  | stays quiet place => exact .stays (hquiet.trans quiet) (place.trans hplace)
  | fails quiet place why => exact .fails (hquiet.trans quiet) (hplace ▸ place) why
  | takesFirst quiet place output =>
      rw [hsame.judge]
      exact .takesFirst (hquiet.trans quiet) (hplace ▸ place) output
  | asksAgain quiet place output place' =>
      exact .asksAgain (hquiet.trans quiet) (hplace ▸ place) output (hsame.judge output ▸ place')
  | keepsFirst quiet place => exact .keepsFirst (hquiet.trans quiet) (hplace ▸ place)
  | takesSecond quiet place output =>
      rw [hsame.judge]
      exact .takesSecond (hquiet.trans quiet) (hplace ▸ place) output
  | goesOn quiet place hlater output kept place' =>
      rw [hsame.partReport, hsame.partText] at place'
      exact .goesOn (hquiet.trans quiet) (hplace ▸ place) hlater output kept place'
  | joins quiet place hlater output kept after =>
      rw [hsame.partText, hquiet.request, hquiet.report]
      exact .joins (hquiet.trans quiet) (hplace ▸ place) hlater output kept after

theorem advance_afterFirst {r : Run} (output : Text) (hplace : r.control.place = .on (.whole none)) :
    Advance r (r.afterFirst output) := by
  have htold : Quiet r ((r.phase .validating).tell (.stage .finalizing)) :=
    (quiet_phase r .validating).trans (quiet_tell _ rfl)
  have hjudge : ((r.phase .validating).tell (.stage .finalizing)).judge output = r.judge output := rfl
  unfold afterFirst
  simp only
  split
  · split
    · exact .fails htold hplace _
    · rw [hjudge]
      refine .asksAgain ?_ hplace output (place_ask _ _ _ _ _ _ _)
      exact htold.trans (((quiet_phase _ .retrying).trans (quiet_tell _ rfl)).trans
        (((quiet_tell _ rfl).trans (quiet_tell _ rfl)).trans (quiet_ask _ _ _ _ _ _ _)))
  · exact .takesFirst htold hplace output

theorem advance_afterSecond {r : Run} {first : Outcome} (output : Option Text)
    (hplace : r.control.place = .on (.whole (some first))) :
    Advance r (r.afterSecond first output) := by
  have htold : Quiet r ((r.phase .validating).tell (.stage .finalizing)) :=
    (quiet_phase r .validating).trans (quiet_tell _ rfl)
  unfold afterSecond
  cases output with
  | none => exact .keepsFirst htold hplace
  | some output =>
      simp only
      split
      · exact .keepsFirst htold hplace
      · exact .takesSecond htold hplace output

theorem advance_afterPart {r : Run} {p : Parts} (output : Text)
    (hplace : r.control.place = .on (.parts p)) : Advance r (r.afterPart p output) := by
  have hpart : (r.phase .validating).partText p output = r.partText p output := rfl
  unfold afterPart
  simp only
  rw [hpart]
  cases hpiece : r.partText p output with
  | mk text isKept =>
      have htold : Quiet r (if isKept = true then (r.phase .validating).tell (.substage .keptChunk)
          else r.phase .validating) := by
        split
        · exact (quiet_phase r .validating).trans (quiet_tell _ rfl)
        · exact quiet_phase r .validating
      simp only
      generalize (if isKept = true then (r.phase .validating).tell (.substage .keptChunk)
          else r.phase .validating) = told at htold
      have htext : text = (r.partText p output).1 := by rw [hpiece]
      rw [htext]
      split
      · next hlater =>
          have hfinal : Quiet r (told.tell (.stage .finalizing)) := htold.trans (quiet_tell _ rfl)
          unfold assemble
          simp only
          rw [hfinal.request, hfinal.report]
          exact .joins hfinal hplace hlater output _ _
      · next c later hlater =>
          have hnext : Quiet r (told.tell (.stage .refining)) := htold.trans (quiet_tell _ rfl)
          refine .goesOn (hnext.trans (quiet_control _ _)) hplace hlater output
            (if isKept = true then p.kept + 1 else p.kept) ?_
          rw [← hnext.sameTask.partReport]
          rfl

theorem advance_afterLadder {r : Run} {job : Job} (result : Except Failure Text)
    (hplace : r.control.place = .on job) : Advance r (r.afterLadder job result) := by
  have htold : Quiet r (r.tell .streamIdle) := quiet_tell r rfl
  have hplace' : (r.tell .streamIdle).control.place = .on job := hplace
  refine Advance.of_quiet ?_ htold rfl
  unfold afterLadder
  simp only
  split
  · exact advance_afterFirst _ hplace'
  · exact advance_afterSecond _ hplace'
  · exact advance_afterSecond _ hplace'
  · exact advance_afterPart _ hplace'
  · exact .fails (Quiet.refl _) hplace' _

theorem advance_askPart {r : Run} {p : Parts} (hplace : r.control.place = .on (.parts p)) :
    Advance r (r.askPart p) := by
  unfold askPart
  split
  · exact .fails (Quiet.refl r) hplace _
  · refine .stays ((quiet_tell r rfl).trans (quiet_ask _ _ _ _ _ _ _)) ?_
    rw [hplace]
    exact place_ask _ _ _ _ _ _ _

/-- **Every step of a run is one of these.** -/
theorem advance_step (r : Run) (x : Signal) : Advance r (r.step x) := by
  unfold step
  split
  · exact .stays (quiet_of_grows (grows_cancel isPlain_stop r.scene)) rfl
  · refine .stays ?_ rfl
    exact (quiet_of_grows Grows.refl.turn).trans (quiet_tell _ rfl)
  · next job l hcontrol _ _ =>
      refine .stays ?_ (by rw [hcontrol]; exact place_withLadder _ _ _)
      have hgrows : ∀ y, r.scene.Grows Act.isPlain (l.step r.settings r.scene y).2 :=
        fun y => (Ladder.grows_step r.settings l r.scene y).mono Act.isPlain_of_isCalling
      exact (quiet_of_grows (hgrows _)).trans (quiet_withLadder _ _ _)
  · next hcontrol => exact advance_afterLadder _ (by rw [hcontrol]; rfl)
  · next hcontrol => exact advance_askPart (by rw [hcontrol]; rfl)
  · exact .stays (Quiet.refl r) rfl

/-- A run whose name is bound and that has done nothing else. -/
def opened (settings : Settings) (name : Text) (request : Request) (host : Host) : Run :=
  bind ⟨settings, request, Report.ofText request.code request.language settings.chunkSize,
    { host := host.shielded }, .ended none⟩ name

/-- What a beginning can make of a run. -/
inductive Opening (r : Run) : Run → Prop
  | fails {r' : Run} (quiet : Quiet r r') (why : Failure) : Opening r (r'.fail why)
  | whole {r' : Run} (quiet : Quiet r r') (place : r'.control.place = .on (.whole none)) :
      Opening r r'
  | parts {r' : Run} {c : Chunk} {later : List Chunk} (quiet : Quiet r r')
      (hchunks : Chunk.ofTexts r.report.chunks = c :: later)
      (place : r'.control.place = .on (.parts ⟨c, r.partReport c, later, [], 0,
        r.report.chunks.length⟩)) : Opening r r'

theorem opening_begin (settings : Settings) (name : Text) (request : Request) (host : Host) :
    Opening (opened settings name request host) (begin settings name request host) := by
  have htold : Quiet (opened settings name request host)
      (((opened settings name request host).phase .analyzing).tell (.stage .understanding)) :=
    (quiet_phase _ _).trans (quiet_tell _ rfl)
  unfold begin
  simp only
  split
  · next c d later hchunks =>
      have hquiet := htold.trans ((quiet_phase _ .chunking).trans (quiet_tell _
        (e := .stage .optimizing) rfl))
      unfold askPart
      split
      · exact .fails hquiet _
      · refine .parts ?_ hchunks (place_ask _ _ _ _ _ _ _)
        exact hquiet.trans ((quiet_tell _ rfl).trans (quiet_ask _ _ _ _ _ _ _))
  · refine .whole ?_ (place_ask _ _ _ _ _ _ _)
    exact htold.trans ((quiet_tell _ rfl).trans (quiet_ask _ _ _ _ _ _ _))

/-- A run ends with an outcome unless it was cancelled. -/
theorem place_succeed (r : Run) (o : Outcome) :
    (r.succeed o).control.place = .ended none ∨ (r.succeed o).control.place = .ended (some o) := by
  unfold succeed
  split
  · exact Or.inl rfl
  · exact Or.inr rfl

theorem sameTask_succeed {r r' : Run} (h : SameTask r r') (o : Outcome) :
    SameTask r (r'.succeed o) := by
  unfold succeed
  split <;> exact h

/-- No step changes what a run was given. -/
theorem Advance.sameTask {r r' : Run} (h : Advance r r') : SameTask r r' := by
  cases h with
  | stays quiet _ => exact quiet.sameTask
  | fails quiet _ _ => exact quiet.sameTask
  | takesFirst quiet _ _ => exact sameTask_succeed quiet.sameTask _
  | asksAgain quiet _ _ _ => exact quiet.sameTask
  | keepsFirst quiet _ => exact sameTask_succeed quiet.sameTask _
  | takesSecond quiet _ _ => exact sameTask_succeed quiet.sameTask _
  | goesOn quiet _ _ _ _ _ => exact quiet.sameTask
  | joins quiet _ _ _ _ _ => exact sameTask_succeed quiet.sameTask _

theorem Opening.sameTask {r r' : Run} (h : Opening r r') : SameTask r r' := by
  cases h with
  | fails quiet _ => exact quiet.sameTask
  | whole quiet _ => exact quiet.sameTask
  | parts quiet _ _ => exact quiet.sameTask

/-- A run after some signals. -/
def after (r : Run) (xs : List Signal) : Run := xs.foldl step r

@[simp] theorem after_nil (r : Run) : r.after [] = r := rfl

@[simp] theorem after_cons (r : Run) (x : Signal) (xs : List Signal) :
    r.after (x :: xs) = (r.step x).after xs := rfl

theorem after_append (r : Run) (xs ys : List Signal) :
    r.after (xs ++ ys) = (r.after xs).after ys := List.foldl_append

theorem after_concat (r : Run) (xs : List Signal) (x : Signal) :
    r.after (xs ++ [x]) = (r.after xs).step x := by
  rw [after, after, List.foldl_append]
  rfl

/-- What every step preserves holds after any signals. -/
theorem after_induction {P : Run → Prop} {r : Run} (xs : List Signal) (h : P r)
    (hstep : ∀ r x, P r → P (r.step x)) : P (r.after xs) := by
  induction xs generalizing r with
  | nil => exact h
  | cons x xs ih => exact ih (hstep r x h)

theorem sameTask_after_begin (settings : Settings) (name : Text) (request : Request) (host : Host)
    (xs : List Signal) : SameTask (opened settings name request host)
      ((begin settings name request host).after xs) :=
  after_induction xs (opening_begin settings name request host).sameTask
    fun r x h => h.trans (advance_step r x).sameTask

end Run
end Refinery
