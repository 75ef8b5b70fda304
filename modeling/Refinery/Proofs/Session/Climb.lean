import Refinery.Proofs.Session.Ladder
import Refinery.Proofs.Session.Reading

/-!
What one step makes of a ladder: a call that was entered is made, a reader hears a signal, a call is
decided, and after it the ladder ends or enters the next call. No call is entered for a request that
was cancelled.
-/

namespace Refinery

open Grammar

namespace Generation

section Hearing

variable (g : Generation) (s : Scene) (x : Signal)

@[simp] theorem marks_hearing : Act.marks (g.hearing s x).acts = Act.marks s.acts := by
  unfold hearing
  split
  · split <;> rfl
  · simp
  · rfl

@[simp] theorem calls_hearing : (g.hearing s x).calls = s.calls := by
  unfold hearing
  split
  · split <;> rfl
  · simp
  · rfl

@[simp] theorem called_hearing : Act.called (g.hearing s x).acts = Act.called s.acts := by
  unfold hearing
  split
  · split <;> rfl
  · simp
  · rfl

end Hearing

end Generation

namespace Ladder

/-- The call that was entered and has not reached the engine. -/
def entered? (l : Ladder) : Option (Text × SamplingOptions) :=
  match l.course with
  | .running g => match g.reader with
    | .entered => some (g.prompt, g.options)
    | _ => none
  | _ => none

theorem entered?_of_running {l : Ladder} {g : Generation} (hcourse : l.course = .running g)
    (hreader : g.reader = .entered) : l.entered? = some (g.prompt, g.options) := by
  unfold entered?
  simp only [hcourse, hreader]

/-- A call that goes on from one that was called, or waits as before, is entered anew nowhere. -/
theorem entered?_of_heard {l : Ladder} {g g' : Generation} {es : List Event}
    (hcourse : l.course = .running g) (h : g.Heard g' es) :
    entered? { l with course := .running g' } = none ∨
      entered? { l with course := .running g' } = l.entered? := by
  by_cases hreader : g'.reader = .entered
  · right
    rw [entered?_of_running rfl hreader, entered?_of_running hcourse (h.entered hreader),
      h.prompt, h.options]
  · left
    unfold entered?
    cases hr : g'.reader with
    | entered => exact absurd hr hreader
    | _ => simp only [hr]

theorem entered?_enter_of_cancelled {l : Ladder} {s : Scene} (h : s.cancelled = true) :
    (l.enter s).entered? = none := by
  rw [enter, if_pos h]
  rfl

/-- What one step can make of a ladder in a scene. -/
inductive Climb (settings : Settings) (l : Ladder) (s : Scene) : Signal → Ladder → Scene → Prop
  | calls {g : Generation} (hcourse : l.course = .running g) (hreader : g.reader = .entered) :
      Climb settings l s .resume { l with course := .running (g.start s).1 } (g.start s).2
  | hears {g g' : Generation} {x : Signal} {es : List Event} (hcourse : l.course = .running g)
      (h : g.Heard g' es) :
      Climb settings l s x { l with course := .running g' } ((g.hearing s x).tells es)
  | decides {g : Generation} {result : Except Failure Text} (hcourse : l.course = .running g)
      (hresult : g.outcome? settings s = some result) :
      Climb settings l s .resume { l with course := .closing result } s.release
  | ends {result : Except Failure Text} (hcourse : l.course = .closing result)
      (result' : Except Failure Text) : Climb settings l s .resume (l.finish result') s
  | retries {output : Text} {e : Errand} {rung : Rung}
      (hcourse : l.course = .closing (.ok output)) (herrand : l.errand = some e)
      (hnext : e.next l.rung output = .retry rung) :
      Climb settings l s .resume ({ l with rung := rung }.enter (s.tell .retryClear))
        (s.tell .retryClear)
  | cancels (hcourse : ∀ g, l.course ≠ .running g) : Climb settings l s .cancel l s.cancel
  | waits (x : Signal) : Climb settings l s x l s

variable {settings : Settings} {l l' : Ladder} {s s' : Scene} {x : Signal}

theorem climb_turn {g : Generation} (hcourse : l.course = .running g) :
    Climb settings l s .resume (l.turn settings s g).1 (l.turn settings s g).2 := by
  unfold turn
  cases hreader : g.reader with
  | entered => exact .calls hcourse hreader
  | _ =>
      cases hresult : g.outcome? settings s with
      | none => exact .waits .resume
      | some result => exact .decides hcourse hresult

theorem climb_proceed {result : Except Failure Text} (hs : s.Unfailing)
    (hcourse : l.course = .closing result) :
    Climb settings l s .resume (l.proceed s result).1 (l.proceed s result).2 := by
  cases result with
  | error why => exact .ends hcourse (.error why)
  | ok output =>
      cases herrand : l.errand with
      | none =>
          simp only [proceed, herrand]
          exact .ends hcourse (.ok output)
      | some e =>
          cases hnext : e.next l.rung output with
          | take =>
              simp only [proceed, herrand, hnext]
              exact .ends hcourse (.ok output)
          | giveUp =>
              simp only [proceed, herrand, hnext]
              exact .ends hcourse _
          | retry rung =>
              have hproceed : l.proceed s (.ok output) =
                  ({ l with rung := rung }.enter (s.tell .retryClear), s.tell .retryClear) := by
                simp only [proceed, herrand, hnext, hs.emit_eq]
              rw [hproceed]
              exact .retries hcourse herrand hnext

/-- A call that is running hears a signal alike in all scenes that agree on the cancellation. -/
theorem exists_step_running (settings : Settings) {g : Generation}
    (hcourse : l.course = .running g) (hx : x ≠ .resume) (cancelled : Bool) :
    ∃ g' es, g.Heard g' es ∧ ∀ s : Scene, s.Unfailing → s.cancelled = cancelled →
      l.step settings s x = ({ l with course := .running g' }, (g.hearing s x).tells es) := by
  obtain ⟨g', es, hheard, hsignal⟩ := g.answers settings x cancelled
  refine ⟨g', es, hheard, fun s hs hcancelled => ?_⟩
  cases x with
  | resume => exact absurd rfl hx
  | _ => simp only [step, hcourse, hsignal s hs hcancelled]

/-- **Every step of a ladder is one of these.** -/
theorem climb_step (settings : Settings) (l : Ladder) (hs : s.Unfailing) (x : Signal) :
    Climb settings l s x (l.step settings s x).1 (l.step settings s x).2 := by
  cases hcourse : l.course with
  | running g =>
      by_cases hx : x = .resume
      · subst hx
        have hstep : l.step settings s .resume = l.turn settings s g := by
          simp only [step, hcourse]
        rw [hstep]
        exact climb_turn hcourse
      · obtain ⟨g', es, hheard, hstep⟩ := exists_step_running settings hcourse hx s.cancelled
        rw [hstep s hs rfl]
        exact .hears hcourse hheard
  | closing result =>
      cases x with
      | resume =>
          have hstep : l.step settings s .resume = l.proceed s result := by
            simp only [step, hcourse]
          rw [hstep]
          exact climb_proceed hs hcourse
      | cancel =>
          simp only [step, hcourse]
          exact .cancels fun g h => by rw [hcourse] at h; cases h
      | _ =>
          simp only [step, hcourse]
          exact .waits _
  | ended result =>
      cases x with
      | cancel =>
          simp only [step, hcourse]
          exact .cancels fun g h => by rw [hcourse] at h; cases h
      | _ =>
          simp only [step, hcourse]
          exact .waits _

/-- So much was told, newest first, of the attempts of a ladder. -/
def Telling (l : Ladder) (told : List Event) : Prop :=
  match l.course with
  | .running g => g.Telling told
  | _ => ∃ b, Attempts b told

theorem Telling.attempts {told : List Event} (h : l.Telling told) : ∃ b, Attempts b told := by
  unfold Telling at h
  split at h
  · exact ⟨_, h.attempts⟩
  · exact h

theorem telling_enter {told : List Event} (l : Ladder) (s : Scene) (h : Attempts false told) :
    (l.enter s).Telling told := by
  unfold enter
  split
  · exact ⟨_, h⟩
  · exact ⟨h, fun _ => rfl⟩

/-- The events of a step go on with the attempts. -/
theorem Climb.exists_told (h : Climb settings l s x l' s') :
    ∃ es, Act.marks s'.acts = es.map .event ++ Act.marks s.acts ∧
      (∀ e ∈ es, e.isHint = false) ∧ ∀ told, l.Telling told → l'.Telling (es ++ told) := by
  cases h with
  | @calls g hcourse _ =>
      refine ⟨[], rfl, by simp, fun told ht => ?_⟩
      unfold Telling at ht
      rw [hcourse] at ht
      exact ⟨ht.attempts, ht.preview⟩
  | @hears g g' _ es hcourse h =>
      refine ⟨es, by simp, h.shown, fun told ht => ?_⟩
      unfold Telling at ht
      rw [hcourse] at ht
      exact h.telling told ht
  | decides _ _ => exact ⟨[], by simp, by simp, fun told ht => ht.attempts⟩
  | ends _ _ => exact ⟨[], rfl, by simp, fun told ht => ht.attempts⟩
  | retries _ _ _ =>
      refine ⟨[.retryClear], by simp, by simp [Event.isHint], fun told ht => ?_⟩
      obtain ⟨b, hb⟩ := ht.attempts
      exact telling_enter _ _ hb.again
  | cancels _ => exact ⟨[], by simp, by simp, fun told ht => ht⟩
  | waits _ => exact ⟨[], rfl, by simp, fun told ht => ht⟩

/-- A step makes the call that was entered, or none; and where the request is cancelled by its end,
it has entered none. -/
theorem Climb.called_cases (h : Climb settings l s x l' s') :
    (∃ c, l.entered? = some c ∧ Act.called s'.acts = c :: Act.called s.acts ∧
      Act.marks s'.acts = Act.marks s.acts ∧ l'.entered? = none) ∨
    (Act.called s'.acts = Act.called s.acts ∧
      (s'.cancelled = true → l'.entered? = none ∨ l'.entered? = l.entered?)) := by
  cases h with
  | calls hcourse hreader =>
      exact Or.inl ⟨_, entered?_of_running hcourse hreader, rfl, rfl, rfl⟩
  | hears hcourse h => exact Or.inr ⟨by simp, fun _ => entered?_of_heard hcourse h⟩
  | decides _ _ => exact Or.inr ⟨by simp, fun _ => Or.inl rfl⟩
  | ends _ _ => exact Or.inr ⟨rfl, fun _ => Or.inl rfl⟩
  | retries _ _ _ => exact Or.inr ⟨by simp, fun h => Or.inl (entered?_enter_of_cancelled h)⟩
  | cancels _ => exact Or.inr ⟨by simp, fun _ => Or.inr rfl⟩
  | waits _ => exact Or.inr ⟨rfl, fun _ => Or.inr rfl⟩

end Ladder
end Refinery
