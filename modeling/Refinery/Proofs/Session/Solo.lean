import Mathlib.Data.List.Induction
import Refinery.Proofs.Session.Call
import Refinery.Proofs.Session.Turn

/-!
A ladder by itself. What a ladder makes of its signals while nobody cancels does not depend on the
scene that it stands in: in a scene that nobody watches it goes the same way and makes the same
calls. Everything that it asks for is a prompt of its errand.
-/

namespace Refinery

open Inference

namespace Scene

variable {s s' : Scene}

theorem Calm.unfailing (h : s.Calm) : s.Unfailing := by
  intro told why hfail
  rw [h.passes] at hfail
  cases hfail

theorem Calm.tells (h : s.Calm) (es : List Event) : (s.tells es).Calm := by
  induction es with
  | nil => exact h
  | cons e es ih => exact ih.tell e

theorem Calm.hearing (h : s.Calm) (g : Generation) {x : Signal} (hx : x ≠ .cancel) :
    (g.hearing s x).Calm := by
  unfold Generation.hearing
  split
  · split
    · exact h.attach g.number
    · exact h
  · exact absurd rfl hx
  · exact h

/-- `s` stands beside the calm scene `s'`: the next call has the same number in both, and what was
called in `s` is `before` and what was called in `s'`, newest first. -/
structure Beside (before : List (Text × SamplingOptions)) (s s' : Scene) : Prop where
  unfailing : s.Unfailing
  calm : s'.Calm
  calls : s'.calls = s.calls
  called : Act.called s.acts = Act.called s'.acts ++ before

variable {before : List (Text × SamplingOptions)}

theorem Beside.of_eq (h : Beside before s s') {t : Scene} (hhost : t.host = s.host)
    (hcalls : t.calls = s.calls) (hcalled : Act.called t.acts = Act.called s.acts) :
    Beside before t s' :=
  ⟨unfailing_congr h.unfailing hhost, h.calm, h.calls.trans hcalls.symm, hcalled.trans h.called⟩

theorem Beside.tells (h : Beside before s s') (es : List Event) :
    Beside before (s.tells es) (s'.tells es) where
  unfailing := by
    induction es with
    | nil => exact h.unfailing
    | cons e es ih => exact ih.tell e
  calm := h.calm.tells es
  calls := by simp [h.calls]
  called := by simp [h.called]

theorem Beside.hearing (h : Beside before s s') (g : Generation) {x : Signal} (hx : x ≠ .cancel) :
    Beside before (g.hearing s x) (g.hearing s' x) where
  unfailing := by
    have hhost : (g.hearing s x).host = s.host := by
      unfold Generation.hearing
      split
      · split <;> rfl
      · exact host_cancel s
      · rfl
    exact unfailing_congr h.unfailing hhost
  calm := h.calm.hearing g hx
  calls := by simp [h.calls]
  called := by simp [h.called]

theorem Beside.release (h : Beside before s s') : Beside before s.release s'.release where
  unfailing := unfailing_congr h.unfailing (host_release s)
  calm := h.calm.release
  calls := by simp [h.calls]
  called := by simp [h.called]

theorem Beside.call (h : Beside before s s') (prompt : Text) (options : SamplingOptions) :
    Beside before (s.call prompt options).1 (s'.call prompt options).1 where
  unfailing := unfailing_congr h.unfailing rfl
  calm := h.calm.call prompt options
  calls := congrArg (· + 1) h.calls
  called := congrArg ((prompt, options) :: ·) h.called

end Scene

/-- A relation between a scene and a calm one that is kept by all that a ladder does there. -/
structure Scene.Accompanying (R : Scene → Scene → Prop) : Prop where
  unfailing {s s' : Scene} (h : R s s') : s.Unfailing
  calm {s s' : Scene} (h : R s s') : s'.Calm
  calls {s s' : Scene} (h : R s s') : s'.calls = s.calls
  tells {s s' : Scene} (h : R s s') (es : List Event) : R (s.tells es) (s'.tells es)
  hearing {s s' : Scene} (h : R s s') (g : Generation) {x : Signal} (hx : x ≠ .cancel) :
    R (g.hearing s x) (g.hearing s' x)
  release {s s' : Scene} (h : R s s') : R s.release s'.release
  call {s s' : Scene} (h : R s s') (prompt : Text) (options : SamplingOptions) :
    R (s.call prompt options).1 (s'.call prompt options).1

theorem Scene.accompanying_beside (before : List (Text × SamplingOptions)) :
    Accompanying (Beside before) :=
  ⟨Beside.unfailing, Beside.calm, Beside.calls, Beside.tells, Beside.hearing, Beside.release,
    Beside.call⟩

namespace Ladder

open Scene

/-- The same ladder, in two scenes that are so related. -/
def Along (R : Scene → Scene → Prop) (a a' : Ladder × Scene) : Prop := a'.1 = a.1 ∧ R a.2 a'.2

/-- The same ladder, in one scene and in the calm one that it stands beside. -/
def Alike (before : List (Text × SamplingOptions)) (a a' : Ladder × Scene) : Prop :=
  a'.1 = a.1 ∧ Beside before a.2 a'.2

variable {settings : Settings} {l : Ladder} {s s' : Scene} {x : Signal}
  {R : Scene → Scene → Prop}

theorem along_turn (hR : Accompanying R) (h : R s s') (hgoing : s.cancelled = false)
    (g : Generation) : Along R (l.turn settings s g) (l.turn settings s' g) := by
  have hresult : g.outcome? settings s' = g.outcome? settings s := by
    unfold Generation.outcome?
    rw [(hR.calm h).going, hgoing]
  unfold turn
  cases hreader : g.reader with
  | entered =>
      have hnumber : (g.start s').1 = (g.start s).1 := by
        simp only [Generation.start, Scene.call, hR.calls h]
      refine ⟨?_, hR.call h g.prompt g.options⟩
      simp only [hnumber]
  | _ =>
      simp only [hresult]
      cases g.outcome? settings s with
      | none => exact ⟨rfl, h⟩
      | some result => exact ⟨rfl, hR.release h⟩

theorem along_proceed (hR : Accompanying R) (h : R s s') {result : Except Failure Text}
    (hgoing : (l.proceed s result).2.cancelled = false) :
    Along R (l.proceed s result) (l.proceed s' result) := by
  cases result with
  | error why => exact ⟨rfl, h⟩
  | ok output =>
      cases herrand : l.errand with
      | none =>
          simp only [proceed, herrand]
          exact ⟨rfl, h⟩
      | some e =>
          cases hnext : e.next l.rung output with
          | take =>
              simp only [proceed, herrand, hnext]
              exact ⟨rfl, h⟩
          | giveUp =>
              simp only [proceed, herrand, hnext]
              exact ⟨rfl, h⟩
          | retry rung =>
              simp only [proceed, herrand, hnext, (hR.unfailing h).emit_eq,
                (hR.calm h).unfailing.emit_eq] at hgoing ⊢
              refine ⟨?_, hR.tells h [.retryClear]⟩
              simp only [enter, hgoing, ((hR.calm h).tell .retryClear).going]

/-- **A step that leaves the request going is the same in a calm scene.** -/
theorem along_step (hR : Accompanying R) (h : R s s') (hx : x ≠ .cancel)
    (hgoing : (l.step settings s x).2.cancelled = false) :
    Along R (l.step settings s x) (l.step settings s' x) := by
  have hs : s.cancelled = false := (grows_step settings l s x).going hgoing
  cases hcourse : l.course with
  | running g =>
      by_cases hresume : x = .resume
      · subst hresume
        simp only [step, hcourse]
        exact along_turn hR h hs g
      · obtain ⟨g', es, -, hstep⟩ := exists_step_running settings hcourse hresume false
        rw [hstep s (hR.unfailing h) hs, hstep s' (hR.calm h).unfailing (hR.calm h).going]
        exact ⟨rfl, hR.tells (hR.hearing h g hx) es⟩
  | closing result =>
      cases x with
      | resume =>
          simp only [step, hcourse] at hgoing ⊢
          exact along_proceed hR h hgoing
      | cancel => exact absurd rfl hx
      | _ =>
          simp only [step, hcourse]
          exact ⟨rfl, h⟩
  | ended result =>
      cases x with
      | cancel => exact absurd rfl hx
      | _ =>
          simp only [step, hcourse]
          exact ⟨rfl, h⟩

theorem alike_step {before : List (Text × SamplingOptions)} (h : Beside before s s')
    (hx : x ≠ .cancel) (hgoing : (l.step settings s x).2.cancelled = false) :
    Alike before (l.step settings s x) (l.step settings s' x) :=
  along_step (accompanying_beside before) h hx hgoing

end Ladder

/-- The prompts of an errand: those of its levels, also with the directive. -/
inductive Errand.Asks (e : Errand) : Text → Prop
  | level (n : Int) : e.Asks (e.prompt n)
  | directive {prompt : Text} (h : e.Asks prompt) : e.Asks (Prompt.withDirective prompt)

theorem Errand.Asks.next {e : Errand} {rung rung' : Rung} {output : Text}
    (h : e.Asks rung.prompt) (hnext : e.next rung output = .retry rung') : e.Asks rung'.prompt := by
  unfold Errand.next at hnext
  split at hnext
  · split at hnext
    · cases hnext
    · cases hnext
      exact .level _
  · split at hnext
    · cases hnext
      exact h.directive
    · cases hnext

/-- A ladder asks for nothing but its errand. -/
structure Ladder.AsksFor (e : Errand) (l : Ladder) (s : Scene) : Prop where
  errand : l.errand = some e
  rung : e.Asks l.rung.prompt
  running : ∀ g, l.course = .running g → e.Asks g.prompt
  called : ∀ call ∈ Act.called s.acts, e.Asks call.1

namespace Ladder

variable {settings : Settings} {e : Errand} {l l' : Ladder} {s s' : Scene} {x : Signal}

theorem AsksFor.enter (h : l.AsksFor e s) : (l.enter s).AsksFor e s := by
  unfold Ladder.enter
  split
  · exact ⟨h.errand, h.rung, fun _ hcourse => Course.noConfusion hcourse, h.called⟩
  · refine ⟨h.errand, h.rung, fun g hcourse => ?_, h.called⟩
    cases hcourse
    exact h.rung

theorem AsksFor.climb (h : l.AsksFor e s) (hclimb : Climb settings l s x l' s') :
    l'.AsksFor e s' := by
  cases hclimb with
  | @calls g hcourse _ =>
      have hprompt := h.running g hcourse
      refine ⟨h.errand, h.rung, fun g' hcourse' => ?_, fun call hcall => ?_⟩
      · cases hcourse'
        exact hprompt
      · rcases List.mem_cons.1 hcall with rfl | hcall
        · exact hprompt
        · exact h.called call hcall
  | @hears g g' _ es hcourse hheard =>
      refine ⟨h.errand, h.rung, fun g'' hcourse' => ?_, by simpa using h.called⟩
      cases hcourse'
      rw [hheard.prompt]
      exact h.running g hcourse
  | decides _ _ =>
      exact ⟨h.errand, h.rung, fun _ hcourse => Course.noConfusion hcourse,
        by simpa using h.called⟩
  | ends _ _ => exact ⟨h.errand, h.rung, fun _ hcourse => Course.noConfusion hcourse, h.called⟩
  | @retries output e' rung hcourse herrand hnext =>
      obtain rfl : e' = e := by simpa [herrand] using h.errand
      have hretried : AsksFor e' { l with rung := rung } (s.tell .retryClear) := by
        refine ⟨herrand, h.rung.next hnext, fun g hcourse' => ?_, by simpa using h.called⟩
        rw [show l.course = .running g from hcourse'] at hcourse
        cases hcourse
      exact hretried.enter
  | cancels _ => exact ⟨h.errand, h.rung, h.running, by simpa using h.called⟩
  | waits _ => exact h

end Ladder

/-- A scene that nobody watches, where calls are numbered from `first` on. -/
def Scene.unwatched (first : Nat) : Scene := { host := fun _ => .pass, calls := first }

theorem Scene.calm_unwatched (first : Nat) : (unwatched first).Calm := ⟨rfl, fun _ => rfl⟩

namespace Run

/-- The ladder of a chunk by itself, after some signals. -/
def alone (task : Run) (c : Chunk) (first : Nat) (signals : List Signal) : Ladder × Scene :=
  let l := Ladder.start (some (task.errandFor c)) ((task.errandFor c).first 0)
    (task.optionsOf c.text) (Scene.unwatched first)
  signals.foldl (fun a x => a.1.step task.settings a.2 x) (l, Scene.unwatched first)

section Alone

variable (task : Run) (c : Chunk) (first : Nat) (signals : List Signal)

theorem alone_concat (x : Signal) : task.alone c first (signals ++ [x]) =
    (task.alone c first signals).1.step task.settings (task.alone c first signals).2 x := by
  rw [alone, List.foldl_append]
  rfl

theorem asksFor_alone : (task.alone c first signals).2.Unfailing ∧
    (task.alone c first signals).1.AsksFor (task.errandFor c) (task.alone c first signals).2 := by
  induction signals using List.reverseRecOn with
  | nil =>
      have hfirst : Ladder.AsksFor (task.errandFor c) ⟨some (task.errandFor c),
          (task.errandFor c).first 0, task.optionsOf c.text, .closing (.ok [])⟩
          (Scene.unwatched first) :=
        ⟨rfl, .level 0, fun _ hcourse => Course.noConfusion hcourse,
          fun _ hcall => absurd hcall List.not_mem_nil⟩
      exact ⟨(Scene.calm_unwatched first).unfailing, hfirst.enter⟩
  | append_singleton signals x ih =>
      obtain ⟨hunfailing, hasks⟩ := ih
      rw [alone_concat]
      refine ⟨?_, hasks.climb (Ladder.climb_step task.settings _ hunfailing x)⟩
      exact Scene.unfailing_congr hunfailing (Ladder.grows_step task.settings _ _ x).host_eq

end Alone

/-- **The ladder of a chunk by itself goes along with it**, as long as the request goes on. -/
theorem alone_step {task : Run} {c : Chunk} {first : Nat} {signals : List Signal} {l l' : Ladder}
    {s s' : Scene} {x : Signal} {before : List (Text × SamplingOptions)}
    (hladder : (task.alone c first signals).1 = l)
    (hbeside : s.Beside before (task.alone c first signals).2) (hx : x ≠ .cancel)
    (hstep : l.step task.settings s x = (l', s')) (hgoing : s'.cancelled = false) :
    (task.alone c first (signals ++ [x])).1 = l' ∧
      s'.Beside before (task.alone c first (signals ++ [x])).2 := by
  subst hladder
  have halike := Ladder.alike_step hbeside hx (by rwa [hstep])
  rwa [hstep, ← alone_concat] at halike

end Run
end Refinery
