import Refinery.Proofs.Session.Frame
import Refinery.Session.Run

/-!
What a run does does not depend on what it has done: the acts so far are kept and never looked at.
So a run whose acts were taken goes on as it would have gone on with them.
-/

namespace Refinery

/-- The scene upon some earlier acts. -/
def Scene.upon (s : Scene) (old : List Act) : Scene := { s with acts := s.acts ++ old }

theorem Scene.cancel_upon (s : Scene) (old : List Act) :
    (s.upon old).cancel = s.cancel.upon old :=
  cancel_recast (f := (· ++ old)) (g := id) (fun _ _ => rfl) s

theorem Scene.tell_upon (s : Scene) (old : List Act) (e : Event) :
    (s.upon old).tell e = (s.tell e).upon old :=
  tell_recast (f := (· ++ old)) (g := id) (fun _ _ => rfl) s e

theorem Ladder.step_upon (settings : Settings) (l : Ladder) (s : Scene) (old : List Act)
    (x : Signal) : l.step settings (s.upon old) x =
      ((l.step settings s x).1, (l.step settings s x).2.upon old) :=
  step_recast (f := (· ++ old)) (g := id) (fun _ _ => rfl) settings l s x

/-- The run upon some earlier acts. -/
def Run.upon (r : Run) (old : List Act) : Run := { r with scene := r.scene.upon old }

namespace Run

open Scene

variable (r : Run) (old : List Act)

theorem tell_upon (e : Event) : (r.upon old).tell e = (r.tell e).upon old := by
  rw [tell, tell, upon, upon, Scene.tell_upon]

theorem phase_upon (p : Phase) : (r.upon old).phase p = (r.phase p).upon old := rfl

theorem fail_upon (why : Failure) : (r.upon old).fail why = (r.fail why).upon old := by
  unfold fail
  simp only [phase_upon, tell_upon]
  rfl

theorem succeed_upon (o : Outcome) : (r.upon old).succeed o = (r.succeed o).upon old := by
  unfold succeed
  have hcancelled : (r.upon old).scene.cancelled = r.scene.cancelled := rfl
  have htell := tell_upon ((r.phase .done).dismiss.unbind) old (.done o)
  rw [hcancelled]
  split
  · exact fail_upon r old _
  · exact congrArg (fun r : Run => { r with control := .ended (some o) }) htell

theorem withLadder_upon (job : Job) (l : Ladder) :
    (r.upon old).withLadder job l = (r.withLadder job l).upon old := by
  unfold withLadder
  split <;> rfl

theorem ask_upon (job : Job) (code : Text) (report : Report) (level : Int) (insist : Bool)
    (context : Option Text) : (r.upon old).ask job code report level insist context =
      (r.ask job code report level insist context).upon old := by
  unfold ask
  cases insist with
  | true => exact withLadder_upon (r.phase .generating) old job _
  | false =>
      simp only [phase_upon, tell_upon, Bool.false_eq_true, if_false]
      exact withLadder_upon ((r.phase .generating).tell _) old job _

theorem judge_upon (output : Text) : (r.upon old).judge output = r.judge output := rfl

theorem partText_upon (p : Parts) (output : Text) :
    (r.upon old).partText p output = r.partText p output := rfl

theorem cancelled_upon : (r.upon old).scene.cancelled = r.scene.cancelled := rfl

theorem report_upon : (r.upon old).report = r.report := rfl

theorem request_upon : (r.upon old).request = r.request := rfl

theorem afterFirst_upon (output : Text) :
    (r.upon old).afterFirst output = (r.afterFirst output).upon old := by
  simp only [afterFirst, phase_upon, tell_upon, judge_upon, report_upon, cancelled_upon,
    request_upon, fail_upon, ask_upon, succeed_upon, apply_ite (upon · old)]

theorem afterSecond_upon (first : Outcome) (output : Option Text) :
    (r.upon old).afterSecond first output = (r.afterSecond first output).upon old := by
  cases output <;>
    simp only [afterSecond, phase_upon, tell_upon, judge_upon, succeed_upon]

theorem assemble_upon (p : Parts) (outputs : List Text) (kept : Nat) :
    (r.upon old).assemble p outputs kept = (r.assemble p outputs kept).upon old := by
  simp only [assemble, tell_upon, report_upon, request_upon, succeed_upon]

theorem afterPart_upon (p : Parts) (output : Text) :
    (r.upon old).afterPart p output = (r.afterPart p output).upon old := by
  cases hpiece : (r.phase .validating).partText p output with
  | mk text isKept =>
      cases isKept <;> cases hlater : p.later <;>
        simp only [afterPart, hlater, phase_upon, partText_upon, hpiece, tell_upon, assemble_upon,
          if_true, Bool.false_eq_true, if_false] <;> rfl

theorem askPart_upon (p : Parts) : (r.upon old).askPart p = (r.askPart p).upon old := by
  simp only [askPart, cancelled_upon, fail_upon, tell_upon, ask_upon, apply_ite (upon · old)]

theorem afterLadder_upon (job : Job) (result : Except Failure Text) :
    (r.upon old).afterLadder job result = (r.afterLadder job result).upon old := by
  unfold afterLadder
  simp only [tell_upon]
  split
  · exact afterFirst_upon _ old _
  · exact afterSecond_upon _ old _ _
  · exact afterSecond_upon _ old _ _
  · exact afterPart_upon _ old _ _
  · exact fail_upon _ old _

/-- **A step upon earlier acts is the step without them.** -/
theorem step_upon (x : Signal) : (r.upon old).step x = (r.step x).upon old := by
  have hcontrol : (r.upon old).control = r.control := rfl
  unfold step
  rw [hcontrol]
  split
  · exact congrArg (fun s : Scene => { r with scene := s }) (cancel_upon r.scene old)
  · exact tell_upon { r with scene := { r.scene with
      context := r.scene.context.turn hints.length } } old _
  · next job l _ _ _ =>
      have hstep := fun x => l.step_upon r.settings r.scene old x
      have hscene : (r.upon old).scene = r.scene.upon old := rfl
      have hsettings : (r.upon old).settings = r.settings := rfl
      simp only [hscene, hsettings, hstep]
      exact withLadder_upon { r with scene := (l.step r.settings r.scene _).2 } old job _
  · exact afterLadder_upon r old _ _
  · exact askPart_upon r old _
  · rfl

/-- A run whose acts were taken, upon them, is the run. -/
theorem takeActs_upon : (r.takeActs.2).upon r.scene.acts = r := rfl

end Run
end Refinery
