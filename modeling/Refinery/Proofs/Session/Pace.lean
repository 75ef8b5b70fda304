import Mathlib.Data.List.Infix
import Mathlib.Logic.Function.Iterate
import Refinery.Proofs.Session.Abreast
import Refinery.Proofs.Session.Talk

/-!
The pace of an engine. What an engine says to its calls settles what a run asks for, what it comes
to and what its host hears, hints apart. How long the engine keeps the run waiting for each word, and
when hints fall due meanwhile, settles nothing: every talk is abreast of one that is never kept
waiting, and falls behind it or catches up with it by the pulses that it goes on by.
-/

namespace Refinery

open Inference

/-- What an engine says to a call: that it refuses it, or some tokens and how they end. -/
inductive Speech where
  | refusal (why : Failure)
  | broken (tokens : List Fragment) (why : Failure)
  | unsettled (tokens : List Fragment) (why : Failure)
  | whole (tokens : List Fragment)

def Speech.signals : Speech → List Signal
  | refusal why => [.refused why]
  | broken ts why => .opened :: (ts.map .token ++ [.broke why])
  | unsettled ts why => .opened :: (ts.map .token ++ [.ended, .unsettled why])
  | whole ts => .opened :: (ts.map .token ++ [.ended, .settled])

/-- An engine, without its delays: what it says to the latest call, by all the calls so far, newest
first. -/
abbrev Speaker := List (Text × SamplingOptions) → Speech

/-- What an engine says neither cancels a request nor shows a hint. -/
theorem Speech.ne_of_mem_signals (speech : Speech) :
    ∀ x ∈ speech.signals, x ≠ .cancel ∧ x ≠ .tick := by
  intro x hx
  cases speech with
  | refusal why =>
      obtain rfl : x = .refused why := by simpa [signals] using hx
      exact ⟨nofun, nofun⟩
  | broken ts why =>
      obtain rfl | ⟨f, -, rfl⟩ | rfl : x = .opened ∨ (∃ f ∈ ts, .token f = x) ∨ x = .broke why := by
        simpa [signals] using hx
      all_goals exact ⟨nofun, nofun⟩
  | unsettled ts why =>
      obtain rfl | ⟨f, -, rfl⟩ | rfl | rfl :
          x = .opened ∨ (∃ f ∈ ts, .token f = x) ∨ x = .ended ∨ x = .unsettled why := by
        simpa [signals] using hx
      all_goals exact ⟨nofun, nofun⟩
  | whole ts =>
      obtain rfl | ⟨f, -, rfl⟩ | rfl | rfl :
          x = .opened ∨ (∃ f ∈ ts, .token f = x) ∨ x = .ended ∨ x = .settled := by
        simpa [signals] using hx
      all_goals exact ⟨nofun, nofun⟩

/-- The call that is on its way. -/
def Control.generation? : Control → Option Generation
  | .asking _ l => match l.course with
    | .running g => some g
    | _ => none
  | _ => none

/-- Whether a reader waits for its engine. -/
def Generation.listens (g : Generation) : Bool :=
  match g.reader with
  | .opening => true
  | .streaming => true
  | .settling => true
  | _ => false

def Control.listens (c : Control) : Bool := c.generation?.any Generation.listens

/-- Whether the call on its way is over its time limit. -/
def Control.overdue (c : Control) : Bool := c.generation?.any (·.expired)

/-- What can happen next in a talk. -/
inductive Pulse where
  /-- The engine says a word, if it is listened to. -/
  | speak
  /-- It is the run's turn. -/
  | turn
  | hint
  | limit
  | cancel
  deriving DecidableEq

namespace Talk

def speak (t : Talk) : Talk :=
  if t.run.control.listens then
    match t.due with
    | [] => t
    | x :: due => ⟨t.run.step x, due⟩
  else t

/-- The run takes its turn. Once it has called anew, what was due of the call before is not. -/
def turn (speaker : Speaker) (t : Talk) : Talk :=
  let r := t.run.step .resume
  ⟨r, if r.scene.calls = t.run.scene.calls then t.due
    else (speaker (Act.called r.scene.acts)).signals⟩

def pulse (speaker : Speaker) (t : Talk) : Pulse → Talk
  | .speak => t.speak
  | .turn => t.turn speaker
  | .hint => ⟨t.run.step .tick, t.due⟩
  | .limit => ⟨t.run.step .expired, t.due⟩
  | .cancel => ⟨t.run.step .cancel, t.due⟩

def paced (speaker : Speaker) (t : Talk) (pulses : List Pulse) : Talk :=
  pulses.foldl (pulse speaker) t

/-- Nobody cancels the request, and none of its calls is over its time limit. -/
structure Timely (speaker : Speaker) (t : Talk) (pulses : List Pulse) : Prop where
  going : (t.paced speaker pulses).run.scene.cancelled = false
  inTime : ∀ front ∈ pulses.inits, (t.paced speaker front).run.control.overdue = false

variable {speaker : Speaker} {t u : Talk} {p : Pulse} {ps qs : List Pulse}

theorem paced_append (speaker : Speaker) (t : Talk) (ps qs : List Pulse) :
    t.paced speaker (ps ++ qs) = (t.paced speaker ps).paced speaker qs := List.foldl_append

theorem going_of_pulse (h : (t.pulse speaker p).run.scene.cancelled = false) :
    t.run.scene.cancelled = false := by
  cases p with
  | speak =>
      change t.speak.run.scene.cancelled = false at h
      unfold speak at h
      split at h
      · split at h
        · exact h
        · exact Run.going_of_step h
      · exact h
  | turn => exact Run.going_of_step (x := .resume) h
  | hint => exact Run.going_of_step (x := .tick) h
  | limit => exact Run.going_of_step (x := .expired) h
  | cancel => exact Run.going_of_step (x := .cancel) h

theorem going_of_paced (h : (t.paced speaker ps).run.scene.cancelled = false) :
    t.run.scene.cancelled = false := by
  induction ps generalizing t with
  | nil => exact h
  | cons p ps ih => exact going_of_pulse (ih h)

theorem Timely.of_append (h : Timely speaker t (ps ++ qs)) : Timely speaker t ps where
  going := by
    have hgoing := h.going
    rw [paced_append] at hgoing
    exact going_of_paced hgoing
  inTime front hfront := by
    have hps : front <+: ps := (List.mem_inits front ps).1 hfront
    have hall : front <+: ps ++ qs := hps.trans (List.prefix_append ps qs)
    exact h.inTime front ((List.mem_inits front _).2 hall)

end Talk

theorem Generation.outcome?_of_listens (settings : Settings) {g : Generation} {s : Scene}
    (hlistens : g.listens = true) (hgoing : s.cancelled = false) (htime : g.expired = false) :
    g.outcome? settings s = none := by
  unfold Generation.listens at hlistens
  unfold Generation.outcome?
  cases hreader : g.reader with
  | entered => rfl
  | stopped failure =>
      rw [hreader] at hlistens
      cases hlistens
  | _ => simp only [hgoing, htime, Bool.false_eq_true, if_false]

theorem Ladder.turn_of_listens (settings : Settings) (l : Ladder) {g : Generation} {s : Scene}
    (hlistens : g.listens = true) (hgoing : s.cancelled = false) (htime : g.expired = false) :
    l.turn settings s g = (l, s) := by
  have houtcome := g.outcome?_of_listens settings hlistens hgoing htime
  unfold Generation.listens at hlistens
  unfold Ladder.turn
  cases hreader : g.reader with
  | entered =>
      rw [hreader] at hlistens
      cases hlistens
  | _ => simp only [houtcome]

namespace Run

variable {r r' : Run}

theorem generation?_eq_some {c : Control} {g : Generation} (h : c.generation? = some g) :
    ∃ job l, c = .asking job l ∧ l.course = .running g := by
  unfold Control.generation? at h
  split at h
  · next job l =>
      split at h
      · next hcourse =>
          cases h
          exact ⟨job, l, rfl, hcourse⟩
      · cases h
  · cases h

/-- A ladder that is not over is put back where it was. -/
theorem withLadder_self {job : Job} {l : Ladder} (hcontrol : r.control = .asking job l)
    (hresult : l.result? = none) : r.withLadder job l = r := by
  simp only [withLadder, hresult]
  rw [← hcontrol]

/-- A turn does nothing while the reader waits for its engine in time. -/
theorem step_resume_of_listens (hlistens : r.control.listens = true)
    (hgoing : r.scene.cancelled = false) (htime : r.control.overdue = false) :
    r.step .resume = r := by
  cases hg : r.control.generation? with
  | none => simp [Control.listens, hg] at hlistens
  | some g =>
      obtain ⟨job, l, hcontrol, hcourse⟩ := generation?_eq_some hg
      simp only [Control.listens, Control.overdue, hg, Option.any_some] at hlistens htime
      have hturn := l.turn_of_listens r.settings hlistens hgoing htime
      have hladder : l.step r.settings r.scene .resume = (l, r.scene) := by
        simp only [Ladder.step, hcourse, hturn]
      rw [step_asking hcontrol (fun h => Signal.noConfusion h) (fun h => Signal.noConfusion h),
        hladder]
      exact withLadder_self hcontrol (by simp only [Ladder.result?, hcourse])

theorem signal_expired (settings : Settings) (g : Generation) (s : Scene) :
    g.signal settings s .expired = ({ g with expired := true }, s) := by
  unfold Generation.signal
  cases g.reader <;> rfl

/-- The time limit does nothing unless it makes a call overdue. -/
theorem step_expired_of_inTime (hclimbing : r.Climbing)
    (htime : (r.step .expired).control.overdue = false) : r.step .expired = r := by
  cases hcontrol : r.control with
  | asking job l =>
      rw [step_asking hcontrol (fun h => Signal.noConfusion h) (fun h => Signal.noConfusion h)]
        at htime ⊢
      cases hcourse : l.course with
      | running g =>
          simp [Ladder.step, hcourse, signal_expired, withLadder, Ladder.result?, Control.overdue,
            Control.generation?] at htime
      | closing result =>
          simp only [Ladder.step, hcourse]
          exact withLadder_self hcontrol (by simp only [Ladder.result?, hcourse])
      | ended result =>
          have hresult := hclimbing job l hcontrol
          simp [Ladder.result?, hcourse] at hresult
  | _ =>
      unfold step
      simp only [hcontrol]

/-- A cancellation does nothing unless it reaches the request. -/
theorem step_cancel_of_going (hgoing : (r.step .cancel).scene.cancelled = false) :
    r.step .cancel = r := by
  have hstep : r.step .cancel = { r with scene := r.scene.cancel } := by
    unfold step
    cases r.control <;> rfl
  rw [hstep] at hgoing ⊢
  have hadmitted : ¬ r.scene.admitted = true := by
    intro hadmitted
    rw [Scene.cancelled_cancel _ hadmitted] at hgoing
    cases hgoing
  rw [Scene.cancel, if_neg hadmitted]

/-- A hint leaves the runs abreast. -/
theorem Abreast.tick (h : Abreast r r') : Abreast (r.step .tick) r' := by
  cases hcontrol : r.control with
  | asking job l =>
      have hscene := h.scene.turn
      have hstep : r.step .tick = Run.tell
          { r with scene := { r.scene with context := r.scene.context.turn hints.length } }
          (.substage (.hint (r.scene.context.turn hints.length).hint)) := by
        unfold Run.step
        simp only [hcontrol]
      rw [hstep]
      exact ⟨h.same, hscene.hint hscene.hint_lt, h.control⟩
  | _ =>
      have hstep : r.step .tick = r := by
        unfold Run.step
        simp only [hcontrol]
      rw [hstep]
      exact h

end Run

/-! ### Talks abreast of one that never waits -/

namespace Talk

variable {speaker : Speaker} {t u : Talk} {p : Pulse} {ps qs : List Pulse}

/-- The pulse that a talk goes on by: the engine's next word once it is listened to, and else the
run's turn. -/
def awaited (t : Talk) : Pulse := if t.run.control.listens then .speak else .turn

def advance (speaker : Speaker) (t : Talk) : Talk := t.pulse speaker t.awaited

theorem awaited_of_listens (h : t.run.control.listens = true) : t.awaited = .speak := if_pos h

theorem awaited_of_not_listens (h : t.run.control.listens = false) : t.awaited = .turn :=
  if_neg (by simp [h])

theorem awaited_cases (t : Talk) : t.awaited = .speak ∨ t.awaited = .turn := by
  cases h : t.run.control.listens with
  | true => exact Or.inl (awaited_of_listens h)
  | false => exact Or.inr (awaited_of_not_listens h)

structure Abreast (t u : Talk) : Prop where
  run : t.run.Abreast u.run
  climbing : t.run.Climbing
  due : u.due = t.due
  words : ∀ x ∈ t.due, x ≠ .cancel ∧ x ≠ .tick

theorem Abreast.speak (h : Abreast t u) (hgoing : t.speak.run.scene.cancelled = false) :
    Abreast t.speak u.speak := by
  unfold Talk.speak at hgoing ⊢
  rw [h.run.control, h.due]
  split
  · next hlistens =>
      rw [if_pos hlistens] at hgoing
      cases hdue : t.due with
      | nil => exact h
      | cons x due =>
          simp only [hdue] at hgoing ⊢
          have hx := h.words x (by simp [hdue])
          exact ⟨h.run.step hx.1 hx.2 hgoing, h.climbing.step h.run.scene.unfailing x, rfl,
            fun y hy => h.words y (by simp [hdue, hy])⟩
  · exact h

theorem Abreast.turn (h : Abreast t u)
    (hgoing : (t.turn speaker).run.scene.cancelled = false) :
    Abreast (t.turn speaker) (u.turn speaker) := by
  have hrun : Run.Abreast (t.run.step .resume) (u.run.step .resume) :=
    h.run.step nofun nofun hgoing
  have hdue : ∀ v : Talk, (v.turn speaker).due =
      if (v.run.step .resume).scene.calls = v.run.scene.calls then v.due
      else (speaker (Act.called (v.run.step .resume).scene.acts)).signals := fun _ => rfl
  refine ⟨hrun, h.climbing.step h.run.scene.unfailing .resume, ?_, ?_⟩
  · rw [hdue, hdue, hrun.scene.calls, hrun.scene.called, h.run.scene.calls, h.due]
  · rw [hdue]
    split
    · exact h.words
    · exact Speech.ne_of_mem_signals _

/-- While the reader waits for its engine, a turn does nothing. -/
theorem turn_of_listens (hlistens : t.run.control.listens = true)
    (hgoing : (t.turn speaker).run.scene.cancelled = false)
    (htime : t.run.control.overdue = false) : t.turn speaker = t := by
  have hstep := Run.step_resume_of_listens hlistens (Run.going_of_step (x := .resume) hgoing) htime
  simp only [Talk.turn, hstep, if_pos]

theorem Abreast.awaited (h : Abreast t u) : u.awaited = t.awaited := by
  unfold Talk.awaited
  rw [h.run.control]

/-- **A talk goes on by the pulse that it awaits and by no other one**, where nobody cancels and no
call is overdue. -/
theorem Abreast.pulse (h : Abreast t u) (hgoing : (t.pulse speaker p).run.scene.cancelled = false)
    (htime : t.run.control.overdue = false)
    (htime' : (t.pulse speaker p).run.control.overdue = false) :
    Abreast (t.pulse speaker p) (if p = t.awaited then u.advance speaker else u) := by
  split
  · next hp =>
      subst hp
      rw [advance, h.awaited]
      rcases t.awaited_cases with hspeak | hturn
      · rw [hspeak] at hgoing ⊢
        exact h.speak hgoing
      · rw [hturn] at hgoing ⊢
        exact h.turn hgoing
  · next hp =>
      cases p with
      | speak =>
          have hl : ¬ t.run.control.listens = true := fun hl => hp (awaited_of_listens hl).symm
          have hsame : t.pulse speaker .speak = t := if_neg hl
          rwa [hsame]
      | turn =>
          have hl : t.run.control.listens = true := by
            by_contra hl
            exact hp (awaited_of_not_listens (by simpa using hl)).symm
          have hsame : t.pulse speaker .turn = t := turn_of_listens hl hgoing htime
          rwa [hsame]
      | hint => exact ⟨h.run.tick, h.climbing.step h.run.scene.unfailing .tick, h.due, h.words⟩
      | limit =>
          have hsame : t.pulse speaker .limit = t := by
            show Talk.mk (t.run.step .expired) t.due = t
            rw [Run.step_expired_of_inTime h.climbing htime']
          rwa [hsame]
      | cancel =>
          have hsame : t.pulse speaker .cancel = t := by
            show Talk.mk (t.run.step .cancel) t.due = t
            rw [Run.step_cancel_of_going hgoing]
          rwa [hsame]

theorem Timely.tail (h : Timely speaker t (ps ++ qs)) :
    Timely speaker (t.paced speaker ps) qs where
  going := by
    rw [← paced_append]
    exact h.going
  inTime front hfront := by
    have hprefix : front <+: qs := (List.mem_inits front qs).1 hfront
    rw [← paced_append]
    exact h.inTime _ ((List.mem_inits _ _).2 ((List.prefix_append_right_inj ps).2 hprefix))

/-- However a talk goes, it is abreast of one that only goes on, and it has gone on if the pulse that
it awaited was among its pulses. -/
theorem Abreast.exists_iterate (h : Abreast t u) (htimely : Timely speaker t ps) :
    ∃ n, Abreast (t.paced speaker ps) ((advance speaker)^[n] u) ∧ (t.awaited ∈ ps → 0 < n) := by
  induction ps generalizing t u with
  | nil => exact ⟨0, h, fun hmem => absurd hmem List.not_mem_nil⟩
  | cons p ps ih =>
      have hsplit : Timely speaker t ([p] ++ ps) := htimely
      have htail : Timely speaker (t.pulse speaker p) ps := hsplit.tail
      have hp := h.pulse (going_of_paced htail.going) (htimely.inTime [] (by simp))
        (htail.inTime [] (by simp))
      by_cases hawaited : p = t.awaited
      · rw [if_pos hawaited] at hp
        obtain ⟨n, hn, -⟩ := ih hp htail
        exact ⟨n + 1, hn, fun _ => Nat.succ_pos n⟩
      · rw [if_neg hawaited] at hp
        obtain ⟨n, hn, hpos⟩ := ih hp htail
        refine ⟨n, hn, fun hmem => hpos ?_⟩
        rw [← hp.awaited, h.awaited]
        exact (List.mem_cons.1 hmem).resolve_left fun heq => hawaited heq.symm

/-- Each round of pulses in which the engine and the run both have their turn takes a talk on. -/
theorem Abreast.exists_iterate_rounds {rounds : List (List Pulse)} (h : Abreast t u)
    (hrounds : ∀ round ∈ rounds, .speak ∈ round ∧ .turn ∈ round)
    (htimely : Timely speaker t rounds.flatten) :
    ∃ n, rounds.length ≤ n ∧
      Abreast (t.paced speaker rounds.flatten) ((advance speaker)^[n] u) := by
  induction rounds generalizing t u with
  | nil => exact ⟨0, Nat.le_refl 0, h⟩
  | cons round rounds ih =>
      rw [List.flatten_cons] at htimely
      obtain ⟨n, hn, hpos⟩ := h.exists_iterate htimely.of_append
      obtain ⟨m, hm, habreast⟩ :=
        ih hn (fun r hr => hrounds r (List.mem_cons_of_mem round hr)) htimely.tail
      have hround := hrounds round List.mem_cons_self
      have hawaited : t.awaited ∈ round := by
        rcases t.awaited_cases with hspeak | hturn
        · exact hspeak ▸ hround.1
        · exact hturn ▸ hround.2
      refine ⟨m + n, ?_, ?_⟩
      · have hn' := hpos hawaited
        rw [List.length_cons]
        omega
      · rw [List.flatten_cons, paced_append, Function.iterate_add_apply]
        exact habreast

theorem advance_of_isOver (h : u.run.isOver = true) : u.advance speaker = u := by
  cases hcontrol : u.run.control with
  | ended o =>
      have hl : u.run.control.listens = false := by rw [hcontrol]; rfl
      have hstep : u.run.step .resume = u.run := by
        unfold Run.step
        simp only [hcontrol]
      rw [advance, awaited_of_not_listens hl]
      simp only [Talk.pulse, Talk.turn, hstep, if_pos]
  | _ => simp [Run.isOver, hcontrol] at h

theorem iterate_advance_of_le {n m : Nat} (h : ((advance speaker)^[n] u).run.isOver = true)
    (hnm : n ≤ m) : (advance speaker)^[m] u = (advance speaker)^[n] u := by
  obtain ⟨k, rfl⟩ := Nat.exists_eq_add_of_le' hnm
  rw [Function.iterate_add_apply, Function.iterate_fixed (advance_of_isOver h)]

theorem exists_after_pulse (speaker : Speaker) (t : Talk) (p : Pulse) :
    ∃ xs, (t.pulse speaker p).run = t.run.after xs := by
  cases p with
  | speak =>
      show ∃ xs, t.speak.run = t.run.after xs
      unfold Talk.speak
      split
      · split
        · exact ⟨[], rfl⟩
        · exact ⟨[_], rfl⟩
      · exact ⟨[], rfl⟩
  | turn => exact ⟨[.resume], rfl⟩
  | hint => exact ⟨[.tick], rfl⟩
  | limit => exact ⟨[.expired], rfl⟩
  | cancel => exact ⟨[.cancel], rfl⟩

theorem exists_after_iterate (speaker : Speaker) (u : Talk) (n : Nat) :
    ∃ xs, ((advance speaker)^[n] u).run = u.run.after xs := by
  induction n with
  | zero => exact ⟨[], rfl⟩
  | succ n ih =>
      obtain ⟨xs, hxs⟩ := ih
      obtain ⟨ys, hys⟩ := exists_after_pulse speaker ((advance speaker)^[n] u)
        ((advance speaker)^[n] u).awaited
      refine ⟨xs ++ ys, ?_⟩
      rw [Function.iterate_succ_apply', advance, hys, hxs, Run.after_append]

/-- What `r` asked for and what its host heard is the beginning of what it was for `r'`. -/
structure Behind (r r' : Run) : Prop where
  called : Act.called r.scene.acts <:+ Act.called r'.scene.acts
  heard : Act.heard r.scene.acts <:+ Act.heard r'.scene.acts

theorem behind_of_le {host : Host} (hu : ∀ xs, Run.Heedful host (u.run.after xs)) {n m : Nat}
    (hnm : n ≤ m) : Behind ((advance speaker)^[n] u).run ((advance speaker)^[m] u).run := by
  obtain ⟨k, rfl⟩ := Nat.exists_eq_add_of_le' hnm
  rw [Function.iterate_add_apply]
  obtain ⟨xs, hxs⟩ := exists_after_iterate speaker u n
  obtain ⟨ys, hys⟩ := exists_after_iterate speaker ((advance speaker)^[n] u) k
  obtain ⟨new, hnew⟩ := Run.Heedful.exists_acts_after (hxs ▸ hu xs) ys
  rw [hys]
  constructor
  · rw [hnew, Act.called_append]
    exact List.suffix_append _ _
  · rw [hnew, Act.heard_append]
    exact List.suffix_append _ _

/-! ### Requests -/

/-- A request that was just made. -/
def made (settings : Settings) (name : Text) (request : Request) (host : Host) : Talk :=
  ⟨.begin settings name request host, []⟩

section Requests

variable {settings : Settings} {request : Request}

/-- A request that was just made, with a host that lets everything pass. -/
def unhindered (settings : Settings) (request : Request) : Talk :=
  made settings [] request fun _ => .pass

theorem abreast_made {name : Text} {host : Host}
    (h : Timely speaker (made settings name request host) ps) :
    Abreast (made settings name request host) (unhindered settings request) where
  run := Run.abreast_begin (going_of_paced h.going) []
  climbing := Run.climbing_begin settings name request host
  due := rfl
  words := fun _ hx => absurd hx List.not_mem_nil

theorem Abreast.isOver_eq (h : Abreast t u) : u.run.isOver = t.run.isOver := by
  rw [Run.isOver, Run.isOver, h.run.control]

theorem Abreast.outcome?_eq (h : Abreast t u) : u.run.outcome? = t.run.outcome? := by
  rw [Run.outcome?, Run.outcome?, h.run.control]

/-- **The pace of the engine does not matter.** Of two talks about a request in which the engine says
the same, nobody cancels and no call is overdue, the first one is at its end. Then the second one has
asked for what the first one asked for, and its host has heard what was heard in the first one but
for hints, as far as it has come; if it is at its end as well, it has asked for and told the same and
comes to the same. And it does come to its end, once the engine and the run have both had their turn
often enough. -/
theorem timing_independent {name : Text} {host : Host} {pulses : List Pulse}
    (htimely : Timely speaker (made settings name request host) pulses)
    (hover : ((made settings name request host).paced speaker pulses).run.isOver = true) :
    let done := ((made settings name request host).paced speaker pulses).run
    (∀ (name' : Text) (host' : Host) (pulses' : List Pulse),
      Timely speaker (made settings name' request host') pulses' →
      let r := ((made settings name' request host').paced speaker pulses').run
      Act.called r.scene.acts <:+ Act.called done.scene.acts ∧
      Act.heard r.scene.acts <:+ Act.heard done.scene.acts ∧
      (r.isOver = true → Act.called r.scene.acts = Act.called done.scene.acts ∧
        Act.heard r.scene.acts = Act.heard done.scene.acts ∧ r.outcome? = done.outcome?)) ∧
    ∃ n, ∀ (name' : Text) (host' : Host) (rounds : List (List Pulse)), n ≤ rounds.length →
      (∀ round ∈ rounds, .speak ∈ round ∧ .turn ∈ round) →
      Timely speaker (made settings name' request host') rounds.flatten →
      ((made settings name' request host').paced speaker rounds.flatten).run.isOver = true := by
  intro done
  obtain ⟨n, hdone, -⟩ := (abreast_made htimely).exists_iterate htimely
  have hover' : ((advance speaker)^[n] (unhindered settings request)).run.isOver = true :=
    hdone.isOver_eq.trans hover
  refine ⟨?_, n, fun name' host' rounds hn hrounds htimely' => ?_⟩
  · intro name' host' pulses' htimely' r
    obtain ⟨m, hr, -⟩ := (abreast_made htimely').exists_iterate htimely'
    have hbehind : Behind ((advance speaker)^[m] (unhindered settings request)).run
        ((advance speaker)^[n] (unhindered settings request)).run := by
      have hheedful := Run.heedful_after_begin settings [] request fun _ => .pass
      rcases Nat.le_total m n with hle | hle
      · exact behind_of_le hheedful hle
      · rw [iterate_advance_of_le hover' hle]
        exact behind_of_le hheedful (Nat.le_refl n)
    have hcalled := hbehind.called
    have hheard := hbehind.heard
    rw [hr.run.scene.called, hdone.run.scene.called] at hcalled
    rw [hr.run.scene.heard, hdone.run.scene.heard] at hheard
    refine ⟨hcalled, hheard, fun hrover => ?_⟩
    have hsame : (advance speaker)^[m] (unhindered settings request) =
        (advance speaker)^[n] (unhindered settings request) := by
      rcases Nat.le_total m n with hle | hle
      · exact (iterate_advance_of_le (hr.isOver_eq.trans hrover) hle).symm
      · exact iterate_advance_of_le hover' hle
    rw [hsame] at hr
    exact ⟨hr.run.scene.called.symm.trans hdone.run.scene.called,
      hr.run.scene.heard.symm.trans hdone.run.scene.heard,
      hr.outcome?_eq.symm.trans hdone.outcome?_eq⟩
  · obtain ⟨m, hm, hr⟩ := (abreast_made htimely').exists_iterate_rounds hrounds htimely'
    rw [iterate_advance_of_le hover' (hn.trans hm)] at hr
    exact hr.isOver_eq.symm.trans hover'

/-- The engine answers at once in one talk, and in the other it keeps the run waiting until two hints
have been shown. -/
theorem independent_of_two_paces :
    let request : Request := { code := "a = 1".toList, code_filled := by decide }
    let speaker : Speaker := fun _ => .whole [.text "```\na = 1\n".toList, .text "```".toList]
    let quick : List Pulse := [.turn, .speak, .speak, .speak, .speak, .speak, .turn, .turn, .turn]
    let slow : List Pulse := [.turn, .hint, .speak, .turn, .speak, .hint, .turn, .speak, .speak,
      .speak, .turn, .turn, .turn]
    let start := made {} [] request fun _ => .pass
    (start.paced speaker quick).run.isOver = true ∧ (start.paced speaker slow).run.isOver = true ∧
      (Act.events (start.paced speaker slow).run.scene.acts).length =
        (Act.events (start.paced speaker quick).run.scene.acts).length + 2 ∧
      Act.called (start.paced speaker slow).run.scene.acts =
        Act.called (start.paced speaker quick).run.scene.acts ∧
      Act.heard (start.paced speaker slow).run.scene.acts =
        Act.heard (start.paced speaker quick).run.scene.acts ∧
      (start.paced speaker slow).run.outcome? = (start.paced speaker quick).run.outcome? := by
  intro request speaker quick slow
  -- `start` is put in place: to compare it with what it is, both talks would be played
  dsimp only
  have hquick : Timely speaker (made {} [] request fun _ => .pass) quick :=
    ⟨by decide +kernel, by decide +kernel⟩
  have hslow : Timely speaker (made {} [] request fun _ => .pass) slow :=
    ⟨by decide +kernel, by decide +kernel⟩
  have hquickOver : ((made {} [] request fun _ => .pass).paced speaker quick).run.isOver = true := by
    decide +kernel
  have hslowOver : ((made {} [] request fun _ => .pass).paced speaker slow).run.isOver = true := by
    decide +kernel
  obtain ⟨-, -, hsame⟩ := (timing_independent hquick hquickOver).1 [] (fun _ => .pass) slow hslow
  exact ⟨hquickOver, hslowOver, by decide +kernel, hsame hslowOver⟩

end Requests

end Talk
end Refinery
