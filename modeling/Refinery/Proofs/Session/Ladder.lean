import Refinery.Proofs.Session.Scene
import Refinery.Session.Ladder

/-!
What a call and a ladder of calls do in a scene: they call the engine, tell handles to stop, show
the streamed text and take it back. Nothing that they do ends the request, and it is only between
two calls that a shown text is taken back.
-/

namespace Refinery

open Scene

private theorem isShowing_stop (n : Nat) : (Act.stop n).isShowing = true := rfl

private theorem isCalling_stop (n : Nat) : (Act.stop n).isCalling = true := rfl

namespace Generation

theorem grows_flush (g : Generation) (s : Scene) : Grows Act.isShowing s (g.flush s).2 := by
  unfold flush
  cases Inference.Fragment.join 0 g.preview with
  | error why => exact .refl
  | ok t =>
      have h : Grows Act.isShowing s (s.emit (.chunk t)).1 := grows_emit isShowing_stop s rfl
      simp only
      split <;> next heq => rwa [heq] at h

theorem grows_extend (flushChars : Int) (g : Generation) (s : Scene) (f : Inference.Fragment) :
    Grows Act.isShowing s (g.extend flushChars s f).2 := by
  unfold extend
  cases f.size with
  | error why => exact .refl
  | ok n =>
      simp only
      split
      · exact grows_flush _ s
      · exact .refl

theorem grows_token (settings : Settings) (g : Generation) (s : Scene) (f : Inference.Fragment) :
    Grows Act.isShowing s (g.token settings s f).2 := by
  unfold token
  split
  · exact .refl
  · have hfirst : Grows Act.isShowing s
        (if g.count = 0 then s.emit .streamActive else (s, none)).1 := by
      split
      · exact grows_emit isShowing_stop s rfl
      · exact .refl
    simp only
    split
    · next heq =>
        rw [heq] at hfirst
        exact hfirst
    · next heq =>
        rw [heq] at hfirst
        exact hfirst.trans (grows_extend settings.flushChars _ _ f)

theorem grows_ended (g : Generation) (s : Scene) : Grows Act.isShowing s (g.ended s).2 := by
  unfold ended
  have h : Grows Act.isShowing s (if g.preview.isEmpty then (g, s) else g.flush s).2 := by
    split
    · exact .refl
    · exact grows_flush g s
  generalize (if g.preview.isEmpty then (g, s) else g.flush s) = sent at h
  obtain ⟨g', s'⟩ := sent
  simp only
  split <;> exact h

theorem grows_signal (settings : Settings) (g : Generation) (s : Scene) (x : Signal) :
    Grows Act.isShowing s (g.signal settings s x).2 := by
  unfold signal
  split
  · have h : Grows Act.isShowing s { s with context := s.context.attach g.number } :=
      Grows.refl.attach g.number
    simp only
    split <;> exact h
  · exact .refl
  · exact grows_token settings g s _
  · exact grows_ended g s
  · exact .refl
  · exact .refl
  · exact .refl
  · exact .refl
  · exact grows_cancel isShowing_stop s
  · exact .refl

end Generation

namespace Ladder

theorem grows_proceed (l : Ladder) (s : Scene) (result : Except Failure Text) :
    Grows Act.isCalling s (l.proceed s result).2 := by
  unfold proceed
  split
  · exact .refl
  · exact .refl
  · have h : Grows Act.isCalling s (s.emit .retryClear).1 := grows_emit isCalling_stop s rfl
    split
    · exact .refl
    · exact .refl
    · split <;> next heq => rwa [heq] at h

theorem grows_turn (settings : Settings) (l : Ladder) (s : Scene) (g : Generation) :
    Grows Act.isCalling s (l.turn settings s g).2 := by
  unfold turn
  split
  · exact grows_call s rfl
  · split
    · exact .refl
    · exact grows_release isCalling_stop s

/-- **A step of a ladder adds nothing to a scene but acts of calling.** -/
theorem grows_step (settings : Settings) (l : Ladder) (s : Scene) (x : Signal) :
    Grows Act.isCalling s (l.step settings s x).2 := by
  unfold step
  split
  · exact grows_turn settings l s _
  · exact (Generation.grows_signal settings _ s _).mono Act.isCalling_of_isShowing
  · exact grows_proceed l s _
  · exact grows_cancel isCalling_stop s
  · exact .refl

end Ladder
end Refinery
