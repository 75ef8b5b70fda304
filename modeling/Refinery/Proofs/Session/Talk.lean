import Mathlib.Data.List.Basic
import Refinery.Proofs.Session.Run

/-!
A run in talk with an engine that answers every prompt. The engine's signals and the turns of the
run come in a fixed order; hints may fall due at any beat between them. What a talk comes to is
proved from stages that no hint disturbs.
-/

namespace Refinery

/-- Nobody cancels: the request was not cancelled, and the host lets every event pass. -/
structure Scene.Calm (s : Scene) : Prop where
  going : s.cancelled = false
  passes : ∀ told, s.host told = .pass

namespace Scene

variable {s : Scene}

theorem Calm.emit_eq (h : s.Calm) (e : Event) :
    s.emit e = ({ s with told := e :: s.told, acts := .event e :: s.acts }, none) := by
  simp only [emit, h.passes]

theorem Calm.tell (h : s.Calm) (e : Event) : (s.tell e).Calm := by
  rw [Scene.tell, h.emit_eq]
  exact ⟨h.going, h.passes⟩

theorem Calm.act (h : s.Calm) (a : Act) : (s.act a).Calm := ⟨h.going, h.passes⟩

theorem Calm.call (h : s.Calm) (prompt : Text) (options : SamplingOptions) :
    (s.call prompt options).1.Calm := ⟨h.going, h.passes⟩

theorem Calm.attach (h : s.Calm) (n : Nat) :
    Calm { s with context := s.context.attach n } := ⟨h.going, h.passes⟩

theorem Calm.turn (h : s.Calm) (total : Nat) :
    Calm { s with context := s.context.turn total } := ⟨h.going, h.passes⟩

theorem Calm.release (h : s.Calm) : s.release.Calm := by
  unfold Scene.release stop
  simp only
  split <;> exact ⟨h.going, h.passes⟩

end Scene

namespace Run

/-- The task is that of `base`, and nobody cancels. -/
structure Ready (base r : Run) : Prop where
  same : SameTask base r
  calm : r.scene.Calm

theorem Ready.tell {base r : Run} (h : Ready base r) (e : Event) : Ready base (r.tell e) :=
  ⟨h.same, h.calm.tell e⟩

theorem Ready.phase {base r : Run} (h : Ready base r) (p : Phase) : Ready base (r.phase p) :=
  ⟨h.same, h.calm.act _⟩

/-- A hint changes nothing but the scene. -/
theorem control_tick (r : Run) : (r.step .tick).control = r.control := by
  unfold step
  cases hcontrol : r.control <;> simp only [hcontrol]
  rfl

theorem Ready.tick {base r : Run} (h : Ready base r) : Ready base (r.step .tick) := by
  refine ⟨h.same.trans (advance_step r .tick).sameTask, ?_⟩
  unfold step
  cases hcontrol : r.control with
  | asking job l => exact (h.calm.turn hints.length).tell _
  | _ => exact h.calm

end Run

/-- The prompt of the call that waits for its handle. -/
def Control.pending? : Control → Option Text
  | .asking _ { course := .running { prompt := prompt, reader := .opening, .. }, .. } => some prompt
  | _ => none

/-- A run with what its engine has still to signal of an answer. -/
structure Talk where
  run : Run
  due : List Signal := []

/-- The beats of a talk: it goes on, or a hint falls due. -/
inductive Beat where
  | go
  | tick
  deriving DecidableEq

namespace Talk

/-- The signals after the handle of an answer that comes in some pieces. -/
def spoken (pieces : List Text) : List Signal :=
  (pieces.map fun t => .token (.text t)) ++ [.ended, .settled]

/-- The talk goes on: the engine, which writes these pieces for a prompt, signals what is due, or
it opens the call that waits, or it is the run's turn. -/
def go (write : Text → List Text) (t : Talk) : Talk :=
  match t.due with
  | x :: due => ⟨t.run.step x, due⟩
  | [] => match t.run.control.pending? with
    | some prompt => ⟨t.run.step .opened, spoken (write prompt)⟩
    | none => ⟨t.run.step .resume, []⟩

def beat (write : Text → List Text) (t : Talk) : Beat → Talk
  | .go => t.go write
  | .tick => ⟨t.run.step .tick, t.due⟩

def after (write : Text → List Text) (t : Talk) (beats : List Beat) : Talk :=
  beats.foldl (beat write) t

theorem after_append (write : Text → List Text) (t : Talk) (bs cs : List Beat) :
    t.after write (bs ++ cs) = (t.after write bs).after write cs := List.foldl_append

/-- The run is at such a control with its task, and so much is due. -/
structure At (base : Run) (C : Control → Prop) (due : List Signal) (t : Talk) : Prop where
  ready : Run.Ready base t.run
  control : C t.run.control
  due_eq : t.due = due

/-- No hint disturbs a stage. -/
theorem At.tick {base : Run} {C : Control → Prop} {due : List Signal} {t : Talk}
    {write : Text → List Text} (h : At base C due t) : At base C due (t.beat write .tick) := by
  refine ⟨h.ready.tick, ?_, h.due_eq⟩
  show C (t.run.step .tick).control
  rw [Run.control_tick]
  exact h.control

/-- From wherever `P` holds, so many beats of going on lead to where `Q` holds. -/
def Leads (write : Text → List Text) (P Q : Talk → Prop) : Prop :=
  ∃ n, ∀ t, P t → ∀ beats : List Beat, n ≤ beats.count .go →
    ∃ front back, beats = front ++ back ∧ front.count .go ≤ n ∧ Q (t.after write front)

variable {write : Text → List Text} {P Q R : Talk → Prop}

theorem Leads.of_imp (h : ∀ t, P t → Q t) : Leads write P Q :=
  ⟨0, fun t ht beats _ => ⟨[], beats, rfl, Nat.le_refl 0, h t ht⟩⟩

theorem Leads.trans (h : Leads write P Q) (h' : Leads write Q R) : Leads write P R := by
  obtain ⟨n, hn⟩ := h
  obtain ⟨m, hm⟩ := h'
  refine ⟨n + m, fun t ht beats hbeats => ?_⟩
  obtain ⟨front, back, rfl, hfront, hq⟩ := hn t ht beats (by omega)
  rw [List.count_append] at hbeats
  obtain ⟨front', back', rfl, hfront', hr⟩ := hm _ hq back (by omega)
  refine ⟨front ++ front', back', by rw [List.append_assoc], ?_, ?_⟩
  · rw [List.count_append]
    omega
  · rwa [after_append]

/-- One beat leads on from where no hint disturbs. -/
theorem Leads.of_go (htick : ∀ t, P t → P (t.beat write .tick)) (hgo : ∀ t, P t → Q (t.go write)) :
    Leads write P Q := by
  refine ⟨1, fun t ht beats hbeats => ?_⟩
  induction beats generalizing t with
  | nil => exact absurd hbeats (by simp)
  | cons b beats ih =>
      cases b with
      | go => exact ⟨[.go], beats, rfl, by simp, hgo t ht⟩
      | tick =>
          have hcount : 1 ≤ beats.count .go := by simpa using hbeats
          obtain ⟨front, back, rfl, hfront, hq⟩ := ih _ (htick t ht) hcount
          exact ⟨.tick :: front, back, rfl, by simpa using hfront, hq⟩

/-- A stage is left by the step that its control takes on the signal that comes. -/
theorem leads_of_step {base : Run} {C C' : Control → Prop} {due due' : List Signal} {x : Signal}
    (hgo : ∀ t, At base C due t → t.go write = ⟨t.run.step x, due'⟩)
    (hstep : ∀ r, Run.Ready base r → C r.control →
      Run.Ready base (r.step x) ∧ C' (r.step x).control) :
    Leads write (At base C due) (At base C' due') := by
  refine Leads.of_go (fun t h => h.tick) fun t h => ?_
  obtain ⟨hready, hcontrol⟩ := hstep t.run h.ready h.control
  rw [hgo t h]
  exact ⟨hready, hcontrol, rfl⟩

theorem after_of_stays (hstay : ∀ t b, Q t → Q (t.beat write b)) {t : Talk} (h : Q t)
    (beats : List Beat) : Q (t.after write beats) := by
  induction beats generalizing t with
  | nil => exact h
  | cons b beats ih => exact ih (hstay t b h)

/-- Where no call waits and nothing is due, it is the run's turn. -/
theorem leads_of_turn {base : Run} {c : Control} {C' : Control → Prop} (hpending : c.pending? = none)
    (hstep : ∀ r, Run.Ready base r → r.control = c →
      Run.Ready base (r.step .resume) ∧ C' (r.step .resume).control) :
    Leads write (At base (· = c) []) (At base C' []) := by
  refine leads_of_step (fun t h => ?_) hstep
  have hcontrol : t.run.control = c := h.control
  rw [go, h.due_eq]
  simp only [hcontrol, hpending]

/-- What is led to and then stays holds after enough beats. -/
theorem Leads.eventually (h : Leads write P Q) (hstay : ∀ t b, Q t → Q (t.beat write b)) :
    ∃ n, ∀ t, P t → ∀ beats : List Beat, n ≤ beats.count .go → Q (t.after write beats) := by
  obtain ⟨n, hn⟩ := h
  refine ⟨n, fun t ht beats hbeats => ?_⟩
  obtain ⟨front, back, rfl, -, hq⟩ := hn t ht beats hbeats
  rw [after_append]
  exact after_of_stays hstay hq back

end Talk
end Refinery
