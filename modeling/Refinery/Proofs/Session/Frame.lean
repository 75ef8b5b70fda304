import Refinery.Session.Ladder

/-!
What a call and a ladder do depends neither on what was done before nor on how handles fail that are
told to stop: the acts so far are kept and never looked at, and nobody minds the failures.
-/

namespace Refinery

/-- The scene with other acts so far and with handles that fail in another way. -/
def Scene.recast (f : List Act → List Act)
    (g : (List Act → Option Failure) → List Act → Option Failure) (s : Scene) : Scene :=
  { s with acts := f s.acts, balks := g s.balks }

section

variable {f : List Act → List Act} {g : (List Act → Option Failure) → List Act → Option Failure}
  (hf : ∀ a acts, f (a :: acts) = a :: f acts)
include hf

namespace Scene

variable (s : Scene)

theorem act_recast (a : Act) : (s.recast f g).act a = (s.act a).recast f g := by
  simp only [act, recast, hf]

theorem stop_recast (handle : Option Nat) :
    (s.recast f g).stop handle = (s.stop handle).recast f g := by
  cases handle with
  | none => rfl
  | some n => exact act_recast hf s _

theorem cancel_recast : (s.recast f g).cancel = s.cancel.recast f g := by
  have hadmitted : (s.recast f g).admitted = s.admitted := rfl
  by_cases h : s.admitted = true
  · rw [cancel, cancel, hadmitted, if_pos h, if_pos h]
    exact stop_recast hf { s with context := s.context.cancel.1 } s.context.handle
  · rw [cancel, cancel, hadmitted, if_neg h, if_neg h]

theorem release_recast : (s.recast f g).release = s.release.recast f g :=
  stop_recast hf { s with context := s.context.detach.1 } s.context.handle

theorem emit_recast (e : Event) :
    (s.recast f g).emit e = ((s.emit e).1.recast f g, (s.emit e).2) := by
  have hhost : (s.recast f g).host (e :: (s.recast f g).told) = s.host (e :: s.told) := rfl
  have hnoted := act_recast (g := g) hf { s with told := e :: s.told } (.event e)
  simp only [emit, hhost]
  cases s.host (e :: s.told) with
  | pass => exact congrArg (·, none) hnoted
  | cancel => exact congrArg (·, none) ((congrArg cancel hnoted).trans (cancel_recast hf _))
  | fail why => exact congrArg (·, some why) hnoted

theorem tell_recast (e : Event) : (s.recast f g).tell e = (s.tell e).recast f g := by
  rw [tell, emit_recast hf, tell]

theorem call_recast (prompt : Text) (options : SamplingOptions) : (s.recast f g).call prompt options =
    ((s.call prompt options).1.recast f g, (s.call prompt options).2) :=
  congrArg (·, s.calls) (act_recast hf { s with calls := s.calls + 1 } (.call s.calls prompt options))

end Scene

namespace Generation

open Scene

variable (settings : Settings) (gen : Generation) (s : Scene)

theorem flush_recast :
    gen.flush (s.recast f g) = ((gen.flush s).1, (gen.flush s).2.recast f g) := by
  cases hjoin : Inference.Fragment.join 0 gen.preview with
  | error why => simp only [flush, hjoin]
  | ok t =>
      cases hemit : s.emit (.chunk t) with
      | mk s' failure => cases failure <;> simp only [flush, hjoin, emit_recast hf, hemit]

theorem extend_recast (flushChars : Int) (fragment : Inference.Fragment) :
    gen.extend flushChars (s.recast f g) fragment =
      ((gen.extend flushChars s fragment).1, (gen.extend flushChars s fragment).2.recast f g) := by
  cases hsize : fragment.size with
  | error why => simp only [extend, hsize]
  | ok n =>
      simp only [extend, hsize]
      split
      · exact flush_recast hf _ s
      · rfl

theorem token_recast (fragment : Inference.Fragment) :
    gen.token settings (s.recast f g) fragment =
      ((gen.token settings s fragment).1, (gen.token settings s fragment).2.recast f g) := by
  by_cases hcancelled : s.cancelled = true
  · have hcancelled' : (s.recast f g).cancelled = true := hcancelled
    rw [token, token, if_pos hcancelled, if_pos hcancelled']
  · have hcancelled' : ¬ (s.recast f g).cancelled = true := hcancelled
    rw [token, token, if_neg hcancelled, if_neg hcancelled']
    have hfirst : (if gen.count = 0 then (s.recast f g).emit .streamActive
          else (s.recast f g, none)) =
        ((if gen.count = 0 then s.emit .streamActive else (s, none)).1.recast f g,
          (if gen.count = 0 then s.emit .streamActive else (s, none)).2) := by
      split
      · exact emit_recast hf s _
      · rfl
    simp only [hfirst]
    obtain ⟨s', failure⟩ := (if gen.count = 0 then s.emit .streamActive else (s, none))
    cases failure with
    | some why => rfl
    | none => simp only [extend_recast hf]

theorem ended_recast :
    gen.ended (s.recast f g) = ((gen.ended s).1, (gen.ended s).2.recast f g) := by
  have hsent : (if gen.preview.isEmpty then (gen, s.recast f g) else gen.flush (s.recast f g)) =
      ((if gen.preview.isEmpty then (gen, s) else gen.flush s).1,
        (if gen.preview.isEmpty then (gen, s) else gen.flush s).2.recast f g) := by
    split
    · rfl
    · exact flush_recast hf gen s
  simp only [ended, hsent]
  generalize (if gen.preview.isEmpty then (gen, s) else gen.flush s) = sent
  split <;> rfl

theorem signal_recast (x : Signal) : gen.signal settings (s.recast f g) x =
    ((gen.signal settings s x).1, (gen.signal settings s x).2.recast f g) := by
  unfold signal
  split
  · have hcancelled : Scene.cancelled { s.recast f g with
        context := (s.recast f g).context.attach gen.number } =
      Scene.cancelled { s with context := s.context.attach gen.number } := rfl
    simp only [hcancelled]
    split <;> rfl
  · rfl
  · exact token_recast hf settings gen s _
  · exact ended_recast hf gen s
  · rfl
  · rfl
  · rfl
  · rfl
  · rw [cancel_recast hf]
  · rfl

end Generation

namespace Ladder

open Scene

variable (settings : Settings) (l : Ladder) (s : Scene)

theorem proceed_recast (result : Except Failure Text) : l.proceed (s.recast f g) result =
    ((l.proceed s result).1, (l.proceed s result).2.recast f g) := by
  cases result with
  | error why => rfl
  | ok output =>
      cases herrand : l.errand with
      | none => simp only [proceed, herrand]
      | some e =>
          cases hnext : e.next l.rung output with
          | take => simp only [proceed, herrand, hnext]
          | giveUp => simp only [proceed, herrand, hnext]
          | retry rung =>
              have henter : ∀ (l : Ladder) (s : Scene), l.enter (s.recast f g) = l.enter s :=
                fun _ _ => rfl
              cases hemit : s.emit .retryClear with
              | mk s' failure =>
                  cases failure <;>
                    simp only [proceed, herrand, hnext, emit_recast hf, hemit, henter]

theorem turn_recast (gen : Generation) : l.turn settings (s.recast f g) gen =
    ((l.turn settings s gen).1, (l.turn settings s gen).2.recast f g) := by
  have houtcome : gen.outcome? settings (s.recast f g) = gen.outcome? settings s := rfl
  cases hreader : gen.reader with
  | entered => simp only [turn, hreader, Generation.start, call_recast hf]
  | _ =>
      simp only [turn, hreader, houtcome]
      split
      · rfl
      · rw [release_recast hf]

/-- **A step of a ladder does not look at the acts so far, and minds no handle that fails.** -/
theorem step_recast (x : Signal) : l.step settings (s.recast f g) x =
    ((l.step settings s x).1, (l.step settings s x).2.recast f g) := by
  unfold step
  split
  · exact turn_recast hf settings l s _
  · simp only [Generation.signal_recast hf]
  · exact proceed_recast hf l s _
  · rw [cancel_recast hf]
  · rfl

end Ladder

end
end Refinery
