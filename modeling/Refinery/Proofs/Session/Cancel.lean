import Mathlib.Data.List.Induction
import Refinery.Proofs.Session.Alone
import Refinery.Proofs.Session.Turn

/-!
Cancelled requests. Once a request is cancelled, whoever does it and whenever it is done, the request
does not end with an outcome, and of all calls only the one that was entered by then can still reach
the engine.
-/

namespace Refinery

namespace Run

variable {r r' r₁ : Run} {host : Host}

/-- A cancellation by the host reaches the run, and a run that was cancelled has no outcome. -/
structure Heedful (host : Host) (r : Run) : Prop where
  host_eq : r.scene.host = host.shielded
  told_eq : r.scene.told = Act.events r.scene.acts
  heeds : r.scene.Heeds
  attended : r.Attended
  going : ∀ o, r.outcome? = some o → r.scene.cancelled = false

/-- A run that is not over. -/
structure Heeding (host : Host) (r : Run) : Prop where
  host_eq : r.scene.host = host.shielded
  told_eq : r.scene.told = Act.events r.scene.acts
  heeds : r.scene.Heeds
  admitted : r.scene.admitted = true

theorem Heedful.heeding (h : Heedful host r) (hopen : r.isOver = false) : Heeding host r :=
  ⟨h.host_eq, h.told_eq, h.heeds, by rw [h.attended, hopen]; rfl⟩

theorem Heeding.quiet (h : Heeding host r) (hquiet : Quiet r r') : Heeding host r' := by
  refine ⟨hquiet.scene.host_eq.trans h.host_eq, ?_, hquiet.scene.heeds h.admitted h.heeds,
    hquiet.scene.admitted_eq.trans h.admitted⟩
  obtain ⟨new, hacts, htold, -⟩ := hquiet.scene.adds
  rw [hacts, htold, h.told_eq, Act.events_append]

theorem Heeding.heedful {job : Job} (h : Heeding host r) (hplace : r.control.place = .on job) :
    Heedful host r := by
  refine ⟨h.host_eq, h.told_eq, h.heeds, ?_, fun o ho => ?_⟩
  · rw [Attended, h.admitted, isOver_of_place hplace]
    rfl
  · rw [outcome?_eq_some_iff, hplace] at ho
    cases ho

theorem events_fail (r : Run) (why : Failure) : Act.events (r.fail why).scene.acts =
    .error (verdictOn why).2 :: Act.events r.scene.acts := by
  rw [← Act.events_marks, marks_fail, Act.events_event, Act.events_cons_of_event? rfl,
    Act.events_marks]

theorem told_fail (r : Run) (why : Failure) :
    (r.fail why).scene.told = .error (verdictOn why).2 :: r.scene.told := Scene.told_emit _ _

theorem Heeding.fail (h : Heeding host r) (why : Failure) : Heedful host (r.fail why) := by
  have htold : Scene.Grows (fun _ => true) r.scene
      ((r.phase (verdictOn why).1).tell (.error (verdictOn why).2)).scene :=
    (Scene.grows_act r.scene rfl rfl).emit (fun _ => rfl) rfl
  refine ⟨(htold.host_eq).trans h.host_eq, ?_, htold.heeds h.admitted h.heeds, rfl, nofun⟩
  rw [told_fail, events_fail, h.told_eq]

/-- A host that is told that its request is done cannot cancel it any more. -/
theorem Heeding.succeed (h : Heeding host r) (o : Outcome) : Heedful host (r.succeed o) := by
  by_cases hcancelled : r.scene.cancelled = true
  · rw [succeed_of_cancelled hcancelled]
    exact h.fail _
  · have hgoing : r.scene.cancelled = false := by simpa using hcancelled
    let dismissed : Scene := ((r.phase .done).dismiss.unbind).scene
    have hscene : (r.succeed o).scene = (dismissed.emit (.done o)).1 := by
      rw [Run.succeed, if_neg hcancelled]
      rfl
    have hkept : (dismissed.emit (.done o)).1.cancelled = false :=
      (Scene.cancelled_emit_of_not_admitted rfl _).trans hgoing
    have htold : (r.succeed o).scene.told = .done o :: r.scene.told := by
      rw [hscene]
      exact Scene.told_emit _ _
    have hevents : Act.events (r.succeed o).scene.acts = .done o :: Act.events r.scene.acts := by
      rw [← Act.events_marks, marks_succeed hgoing, Act.events_event,
        Act.events_cons_of_event? rfl, Act.events_marks]
    refine ⟨?_, ?_, fun e earlier hsuffix hhost hdone => ?_, attended_succeed r o, fun _ _ => ?_⟩
    · rw [hscene]
      exact (Scene.host_emit _ _).trans h.host_eq
    · rw [htold, hevents, h.told_eq]
    · have hhost' : (r.succeed o).scene.host = r.scene.host := by
        rw [hscene]
        exact Scene.host_emit _ _
      rw [htold] at hsuffix
      rw [hhost'] at hhost
      rcases List.suffix_cons_iff.1 hsuffix with heq | hsuffix
      · rw [List.cons.injEq] at heq
        exact absurd heq.1 (hdone o)
      · exact absurd (h.heeds e earlier hsuffix hhost hdone) hcancelled
    · rw [hscene]
      exact hkept

theorem Heedful.step (h : Heedful host r) (x : Signal) : Heedful host (r.step x) := by
  cases hover : r.isOver with
  | true => rwa [step_of_isOver h.attended hover]
  | false =>
      have hheeding := h.heeding hover
      have hadvance := advance_step r x
      generalize r.step x = r' at hadvance
      cases hadvance with
      | stays quiet place =>
          cases hplace : r.control.place with
          | on job => exact (hheeding.quiet quiet).heedful (place.trans hplace)
          | ended o =>
              have hover' : r.isOver = true := isOver_iff.2 ⟨o, hplace⟩
              rw [hover] at hover'
              cases hover'
      | fails quiet _ why => exact (hheeding.quiet quiet).fail why
      | takesFirst quiet _ _ => exact (hheeding.quiet quiet).succeed _
      | asksAgain quiet _ _ place' => exact (hheeding.quiet quiet).heedful place'
      | keepsFirst quiet _ => exact (hheeding.quiet quiet).succeed _
      | takesSecond quiet _ _ => exact (hheeding.quiet quiet).succeed _
      | goesOn quiet _ _ _ _ place' => exact (hheeding.quiet quiet).heedful place'
      | joins quiet _ _ _ _ _ => exact (hheeding.quiet quiet).succeed _

theorem heedful_begin (settings : Settings) (name : Text) (request : Request) (host : Host) :
    Heedful host (begin settings name request host) := by
  have hopened : Heeding host (opened settings name request host) := by
    refine ⟨rfl, rfl, fun e earlier hsuffix => ?_, rfl⟩
    exact absurd (List.suffix_nil.1 hsuffix) (List.cons_ne_nil e earlier)
  have hopening := opening_begin settings name request host
  generalize begin settings name request host = r at hopening
  cases hopening with
  | fails quiet why => exact (hopened.quiet quiet).fail why
  | whole quiet place => exact (hopened.quiet quiet).heedful place
  | parts quiet _ place => exact (hopened.quiet quiet).heedful place

theorem heedful_after_begin (settings : Settings) (name : Text) (request : Request) (host : Host)
    (xs : List Signal) : Heedful host ((begin settings name request host).after xs) :=
  after_induction xs (heedful_begin settings name request host) fun _ x h => h.step x

theorem Heedful.unfailing (h : Heedful host r) : r.scene.Unfailing := by
  have hshielded := Scene.unfailing_shielded r.scene host
  exact Scene.unfailing_congr hshielded h.host_eq

/-- A run that was cancelled comes to nothing. -/
theorem Heedful.outcome?_eq_none (h : Heedful host r) (hcancelled : r.scene.cancelled = true) :
    r.outcome? = none := by
  cases houtcome : r.outcome? with
  | none => rfl
  | some o =>
      have hgoing := h.going o houtcome
      rw [hcancelled] at hgoing
      cases hgoing

/-- Who hosts a request cancels it by its reaction to any event but that it is done. -/
theorem Heedful.cancelled_of_host (h : Heedful host r) {e : Event} {new old : List Act}
    (hacts : r.scene.acts = new ++ .event e :: old)
    (hhost : host (e :: Act.events old) = .cancel) (hdone : ∀ o, e ≠ .done o) :
    r.scene.cancelled = true := by
  refine h.heeds e (Act.events old) ?_ ?_ hdone
  · rw [h.told_eq, hacts, Act.events_append, Act.events_event]
    exact List.suffix_append _ _
  · rw [h.host_eq, Host.shielded, hhost]

/-! ### Calls after a cancellation -/

/-- The call that was entered and has not reached the engine. -/
def entered? (r : Run) : Option (Text × SamplingOptions) :=
  match r.control with
  | .asking _ l => l.entered?
  | _ => none

theorem entered?_withLadder (r : Run) (job : Job) (l : Ladder) :
    (r.withLadder job l).entered? = l.entered? := by
  unfold withLadder Ladder.result? entered? Ladder.entered?
  cases hcourse : l.course <;> simp [hcourse]

theorem entered?_succeed (r : Run) (o : Outcome) : (r.succeed o).entered? = none := by
  unfold succeed
  split <;> rfl

theorem entered?_enter_of_cancelled (h : r.scene.cancelled = true) (job : Job) (e : Errand)
    (level : Int) (options : SamplingOptions) : (r.enter job e level options).entered? = none := by
  rw [enter_of_cancelled job e level options h]
  rfl

/-- A turn calls nothing, and for a request that was cancelled it enters nothing. -/
theorem Turn.called_eq (h : Turn r r') : Act.called r'.scene.acts = Act.called r.scene.acts ∧
    (r'.scene.cancelled = true → r'.entered? = none) := by
  cases h with
  | breaks _ told => exact ⟨(called_fail _ _).trans told.called, fun _ => rfl⟩
  | stops _ told => exact ⟨(called_fail _ _).trans told.called, fun _ => rfl⟩
  | takesFirst _ told =>
      exact ⟨(called_succeed _ _).trans told.called, fun _ => entered?_succeed _ _⟩
  | asksAgain _ told =>
      rw [scene_enter]
      exact ⟨told.called, fun hcancelled => entered?_enter_of_cancelled hcancelled _ _ _ _⟩
  | takesSecond _ told _ =>
      exact ⟨(called_succeed _ _).trans told.called, fun _ => entered?_succeed _ _⟩
  | pauses _ _ told => exact ⟨told.called, fun _ => rfl⟩
  | joins _ _ told _ =>
      exact ⟨(called_succeed _ _).trans told.called, fun _ => entered?_succeed _ _⟩
  | turnsBack _ _ => exact ⟨called_fail _ _, fun _ => rfl⟩
  | asksPart _ told =>
      rw [scene_enter]
      exact ⟨told.called, fun hcancelled => entered?_enter_of_cancelled hcancelled _ _ _ _⟩

/-- A step makes the call that was entered and tells nothing, or makes none; and where the request is
cancelled by its end, it has entered none. -/
theorem Takes.called_cases {x : Signal} (h : Takes r x r') :
    (∃ c, r.entered? = some c ∧ Act.called r'.scene.acts = c :: Act.called r.scene.acts ∧
      Act.marks r'.scene.acts = Act.marks r.scene.acts ∧ r'.entered? = none) ∨
    (Act.called r'.scene.acts = Act.called r.scene.acts ∧
      (r'.scene.cancelled = true → r'.entered? = none ∨ r'.entered? = r.entered?)) := by
  cases h with
  | cancels => exact Or.inr ⟨Scene.called_cancel _, fun _ => Or.inr rfl⟩
  | ticks hcontrol hs _ =>
      refine Or.inr ⟨(Scene.called_tell _ _).trans ?_, fun _ => Or.inr rfl⟩
      rw [hs]
  | @climbs job l l' s _ hcontrol _ _ hclimb _ =>
      have hentered : r.entered? = l.entered? := by rw [entered?, hcontrol]
      rw [scene_withLadder, entered?_withLadder, hentered]
      exact hclimb.called_cases
  | turns hturn =>
      exact Or.inr ⟨hturn.called_eq.1, fun hcancelled => Or.inl (hturn.called_eq.2 hcancelled)⟩
  | waits _ => exact Or.inr ⟨rfl, fun _ => Or.inr rfl⟩

/-- Of a run that is cancelled: by when so many calls were made and this one was entered. No other
one is made after that. -/
structure Spent (entered : Option (Text × SamplingOptions))
    (calls : List (Text × SamplingOptions)) (r : Run) : Prop where
  cancelled : r.scene.cancelled = true
  called : (Act.called r.scene.acts = calls ∧ (r.entered? = none ∨ r.entered? = entered)) ∨
    (∃ c, entered = some c ∧ Act.called r.scene.acts = c :: calls ∧ r.entered? = none)

theorem cancelled_fail (h : r.scene.cancelled = true) (why : Failure) :
    (r.fail why).scene.cancelled = true := Scene.cancelled_emit_of_cancelled _ _ h

theorem cancelled_succeed (h : r.scene.cancelled = true) (o : Outcome) :
    (r.succeed o).scene.cancelled = true := by
  rw [succeed_of_cancelled h]
  exact cancelled_fail h _

theorem cancelled_step (h : r.scene.cancelled = true) (x : Signal) :
    (r.step x).scene.cancelled = true := by
  have hadvance := advance_step r x
  generalize r.step x = r' at hadvance
  cases hadvance with
  | stays quiet _ => exact quiet.scene.cancelled h
  | fails quiet _ why => exact cancelled_fail (quiet.scene.cancelled h) why
  | takesFirst quiet _ _ => exact cancelled_succeed (quiet.scene.cancelled h) _
  | asksAgain quiet _ _ _ => exact quiet.scene.cancelled h
  | keepsFirst quiet _ => exact cancelled_succeed (quiet.scene.cancelled h) _
  | takesSecond quiet _ _ => exact cancelled_succeed (quiet.scene.cancelled h) _
  | goesOn quiet _ _ _ _ _ => exact quiet.scene.cancelled h
  | joins quiet _ _ _ _ _ => exact cancelled_succeed (quiet.scene.cancelled h) _

theorem going_of_step {x : Signal} (h : (r.step x).scene.cancelled = false) :
    r.scene.cancelled = false := by
  refine Bool.eq_false_iff.2 fun hcancelled => ?_
  rw [cancelled_step hcancelled x] at h
  cases h

theorem Spent.step {entered : Option (Text × SamplingOptions)}
    {calls : List (Text × SamplingOptions)} (h : Spent entered calls r) (hheedful : Heedful host r)
    (x : Signal) : Spent entered calls (r.step x) := by
  have hcancelled := cancelled_step h.cancelled x
  refine ⟨hcancelled, ?_⟩
  rcases (takes_step hheedful.unfailing x).called_cases with
    ⟨c, hentered, hcalled, -, hnone⟩ | ⟨hcalled, hkept⟩
  · rcases h.called with ⟨hcalls, hnone' | heq⟩ | ⟨c', -, -, hnone'⟩
    · rw [hnone'] at hentered
      cases hentered
    · exact Or.inr ⟨c, heq ▸ hentered, by rw [hcalled, hcalls], hnone⟩
    · rw [hnone'] at hentered
      cases hentered
  · rcases h.called with ⟨hcalls, hentered⟩ | ⟨c, hc, hcalls, hnone⟩
    · refine Or.inl ⟨hcalled.trans hcalls, ?_⟩
      rcases hkept hcancelled with hnone | heq
      · exact Or.inl hnone
      · rwa [heq]
    · refine Or.inr ⟨c, hc, hcalled.trans hcalls, ?_⟩
      rcases hkept hcancelled with hnone' | heq
      · exact hnone'
      · rw [heq, hnone]

theorem Spent.after {entered : Option (Text × SamplingOptions)}
    {calls : List (Text × SamplingOptions)} (h : Spent entered calls r) (hheedful : Heedful host r)
    (xs : List Signal) : Spent entered calls (r.after xs) := by
  induction xs generalizing r with
  | nil => exact h
  | cons x xs ih => exact ih (h.step hheedful x) (hheedful.step x)

/-- A cancellation from outside, of a run that is not over. -/
theorem Heedful.spent_cancel (h : Heedful host r) (hopen : r.isOver = false) :
    Spent r.entered? (Act.called r.scene.acts) (r.step .cancel) := by
  have hstep : r.step .cancel = { r with scene := r.scene.cancel } := by
    unfold Run.step
    cases r.control <;> rfl
  rw [hstep]
  exact ⟨Scene.cancelled_cancel _ (h.heeding hopen).admitted,
    Or.inl ⟨Scene.called_cancel _, Or.inr rfl⟩⟩

/-- What was called since then. -/
theorem Spent.called_new {entered : Option (Text × SamplingOptions)} {new old : List Act}
    (h : Spent entered (Act.called old) r)
    (hcalled : Act.called r.scene.acts = Act.called new ++ Act.called old) :
    Act.called new.reverse = [] ∨ ∃ c, entered = some c ∧ Act.called new.reverse = [c] := by
  rw [Act.called_reverse]
  rcases h.called with ⟨hcalls, -⟩ | ⟨c, hc, hcalls, -⟩
  · rw [hcalled] at hcalls
    exact Or.inl (by rw [List.append_left_eq_self.1 hcalls, List.reverse_nil])
  · rw [hcalled, ← List.singleton_append] at hcalls
    exact Or.inr ⟨c, hc, by rw [List.append_cancel_right hcalls, List.reverse_singleton]⟩

/-! ### Acts of a step -/

theorem Heedful.exists_acts_step (h : Heedful host r) (x : Signal) :
    ∃ new, (r.step x).scene.acts = new ++ r.scene.acts := by
  cases hover : r.isOver with
  | true => exact ⟨[], by rw [step_of_isOver h.attended hover]; rfl⟩
  | false =>
      have hreverse : ∀ more, (r.step x).scene.acts.reverse = r.scene.acts.reverse ++ more →
          (r.step x).scene.acts = more.reverse ++ r.scene.acts := by
        intro more hmore
        rw [← List.reverse_reverse (r.step x).scene.acts, hmore, List.reverse_append,
          List.reverse_reverse]
      cases (advance_step r x).progress hover with
      | ongoing _ acts _ => exact ⟨_, hreverse _ acts⟩
      | closed _ acts _ _ => exact ⟨_, hreverse _ acts⟩

theorem Heedful.exists_acts_after (h : Heedful host r) (xs : List Signal) :
    ∃ new, (r.after xs).scene.acts = new ++ r.scene.acts := by
  induction xs generalizing r with
  | nil => exact ⟨[], rfl⟩
  | cons x xs ih =>
      obtain ⟨new, hnew⟩ := h.exists_acts_step x
      obtain ⟨more, hmore⟩ := ih (h.step x)
      exact ⟨more ++ new, by rw [after_cons, hmore, hnew, List.append_assoc]⟩

theorem Begins.called_eq (h : Begins r r') : Act.called r'.scene.acts = Act.called r.scene.acts ∧
    (r'.scene.cancelled = true → r'.entered? = none) := by
  cases h with
  | turnsBack _ told => exact ⟨(called_fail _ _).trans told.called, fun _ => rfl⟩
  | asksPart _ _ told =>
      rw [scene_enter]
      exact ⟨told.called, fun hcancelled => entered?_enter_of_cancelled hcancelled _ _ _ _⟩
  | asksWhole _ told =>
      rw [scene_enter]
      exact ⟨told.called, fun hcancelled => entered?_enter_of_cancelled hcancelled _ _ _ _⟩

/-- The host has cancelled the request when it was told an event: the call that was entered then is
one that was entered after some of the signals, and before the event. -/
def SpentAt (begun : Run) (xs : List Signal) (old : List Act) (r : Run) : Prop :=
  ∃ entered, Spent entered (Act.called old) r ∧ ∀ c, entered = some c →
    ∃ front, front <+: xs ∧ (begun.after front).entered? = some c ∧
      (begun.after front).scene.acts <:+ old

/-- What one more signal does, wherever the event was told. -/
theorem spentAt_step {begun : Run} {xs : List Signal} (x : Signal)
    (hheedful : Heedful host (begun.after xs))
    (hpast : ∀ new e old, (begun.after xs).scene.acts = new ++ .event e :: old →
      host (e :: Act.events old) = .cancel → (∀ o, e ≠ .done o) →
      SpentAt begun xs old (begun.after xs))
    {new old : List Act} {e : Event}
    (hacts : ((begun.after xs).step x).scene.acts = new ++ .event e :: old)
    (hhost : host (e :: Act.events old) = .cancel) (hdone : ∀ o, e ≠ .done o) :
    SpentAt begun (xs ++ [x]) old ((begun.after xs).step x) := by
  have hearlier : ∀ new', (begun.after xs).scene.acts = new' ++ .event e :: old →
      SpentAt begun (xs ++ [x]) old ((begun.after xs).step x) := by
    intro new' hnew'
    obtain ⟨entered, hspent, hfront⟩ := hpast new' e old hnew' hhost hdone
    refine ⟨entered, hspent.step hheedful x, fun c hc => ?_⟩
    obtain ⟨front, hprefix, hentered, hsuffix⟩ := hfront c hc
    exact ⟨front, hprefix.trans (List.prefix_append _ _), hentered, hsuffix⟩
  obtain ⟨added, hadded⟩ := hheedful.exists_acts_step x
  rw [hadded] at hacts
  rcases List.append_eq_append_iff.1 hacts with ⟨rest, -, hrest⟩ | ⟨rest, hnew, hrest⟩
  · exact hearlier rest hrest
  · cases rest with
    | nil => exact hearlier [] hrest.symm
    | cons a rest =>
        rw [List.cons_append, List.cons.injEq] at hrest
        obtain ⟨rfl, rfl⟩ := hrest
        have hacts' : ((begun.after xs).step x).scene.acts =
            new ++ .event e :: (rest ++ (begun.after xs).scene.acts) := by
          rw [hadded, hacts]
        have hcancelled := (hheedful.step x).cancelled_of_host hacts' hhost hdone
        -- the event is told in this very step, and a step that tells an event makes no call
        rcases (takes_step hheedful.unfailing x).called_cases with
          ⟨c, -, -, hmarks, -⟩ | ⟨hcalled, hkept⟩
        · have hevents := congrArg (fun as => (Act.events as).length) hmarks
          simp only [Act.events_marks, hacts', Act.events_append, Act.events_event,
            List.length_append, List.length_cons] at hevents
          omega
        · have hnone : Act.called rest = [] := by
            rw [hacts', Act.called_append, Act.called_cons_of_call? rfl, Act.called_append,
              ← List.append_assoc] at hcalled
            exact (List.append_eq_nil_iff.1 (List.append_left_eq_self.1 hcalled)).2
          have hold : Act.called (rest ++ (begun.after xs).scene.acts) =
              Act.called (begun.after xs).scene.acts := by
            rw [Act.called_append, hnone, List.nil_append]
          refine ⟨(begun.after xs).entered?, ⟨hcancelled, Or.inl ⟨?_, hkept hcancelled⟩⟩,
            fun c hc => ⟨xs, List.prefix_append _ _, hc, List.suffix_append _ _⟩⟩
          rw [hcalled, hold]

theorem spentAt_after_begin (settings : Settings) (name : Text) (request : Request) (host : Host)
    (xs : List Signal) {new old : List Act} {e : Event}
    (hacts : ((begin settings name request host).after xs).scene.acts = new ++ .event e :: old)
    (hhost : host (e :: Act.events old) = .cancel) (hdone : ∀ o, e ≠ .done o) :
    SpentAt (begin settings name request host) xs old
      ((begin settings name request host).after xs) := by
  induction xs using List.reverseRecOn generalizing new e old with
  | nil =>
      have hheedful := heedful_begin settings name request host
      have hcancelled := hheedful.cancelled_of_host hacts hhost hdone
      obtain ⟨hcalled, hentered⟩ := (begins_begin settings name request host).called_eq
      have hnone : Act.called (begin settings name request host).scene.acts = [] := hcalled
      have hold : Act.called old = [] := by
        rw [show (begin settings name request host).scene.acts = _ from hacts, Act.called_append,
          Act.called_cons_of_call? rfl, List.append_eq_nil_iff] at hnone
        exact hnone.2
      refine ⟨none, ⟨hcancelled, Or.inl ⟨?_, Or.inl (hentered hcancelled)⟩⟩, nofun⟩
      rw [hold]
      exact hnone
  | append_singleton xs x ih =>
      rw [after_concat] at hacts ⊢
      exact spentAt_step x (heedful_after_begin settings name request host xs)
        (fun new e old => ih) hacts hhost hdone

/-- A run that is cancelled from outside before it is over. -/
theorem Heedful.cancelled_after (h : Heedful host r) (hopen : r.isOver = false) (xs : List Signal) :
    ((r.step .cancel).after xs).scene.cancelled = true ∧
    ∃ new, ((r.step .cancel).after xs).scene.acts = new ++ r.scene.acts ∧
      (Act.called new.reverse = [] ∨
        ∃ c, r.entered? = some c ∧ Act.called new.reverse = [c]) := by
  have hspent := (h.spent_cancel hopen).after (h.step .cancel) xs
  obtain ⟨first, hfirst⟩ := h.exists_acts_step .cancel
  obtain ⟨more, hmore⟩ := (h.step .cancel).exists_acts_after xs
  rw [hfirst, ← List.append_assoc] at hmore
  have hcalled := (congrArg Act.called hmore).trans (Act.called_append _ _)
  exact ⟨hspent.cancelled, more ++ first, hmore, hspent.called_new hcalled⟩

/-- A run that its host cancels when it is told an event. -/
theorem cancelled_by_host (settings : Settings) (name : Text) (request : Request) (host : Host)
    (xs : List Signal) {new old : List Act} {e : Event}
    (hacts : ((begin settings name request host).after xs).scene.acts = new ++ .event e :: old)
    (hhost : host (e :: Act.events old) = .cancel) (hdone : ∀ o, e ≠ .done o) :
    ((begin settings name request host).after xs).scene.cancelled = true ∧
    (Act.called new.reverse = [] ∨ ∃ front c, front <+: xs ∧
      ((begin settings name request host).after front).entered? = some c ∧
      ((begin settings name request host).after front).scene.acts <:+ old ∧
      Act.called new.reverse = [c]) := by
  obtain ⟨entered, hspent, hfront⟩ :=
    spentAt_after_begin settings name request host xs hacts hhost hdone
  have hcalled : Act.called ((begin settings name request host).after xs).scene.acts =
      Act.called new ++ Act.called old := by
    rw [hacts, Act.called_append, Act.called_cons_of_call? rfl]
  refine ⟨hspent.cancelled, ?_⟩
  rcases hspent.called_new hcalled with hnone | ⟨c, hc, hone⟩
  · exact Or.inl hnone
  · obtain ⟨front, hprefix, hentered, hsuffix⟩ := hfront c hc
    exact Or.inr ⟨front, c, hprefix, hentered, hsuffix, hone⟩

theorem isOver_of_entered? {c : Text × SamplingOptions} (h : r.entered? = some c) :
    r.isOver = false := by
  unfold entered? at h
  unfold isOver
  split at h
  · next hcontrol => rw [hcontrol]
  · cases h

end Run

theorem Move.reaching_cases (m : Move) : m.reaching = [] ∨ ∃ x, m.reaching = [x] := by
  unfold reaching
  split
  · exact Or.inr ⟨_, rfl⟩
  · split
    · exact Or.inr ⟨_, rfl⟩
    · exact Or.inl rfl

/-- Each move brings one signal at most, so they can be stopped after any signal. -/
theorem Move.exists_prefix {ms : List Move} {xs : List Signal}
    (h : xs <+: ms.flatMap Move.reaching) :
    ∃ front, front <+: ms ∧ front.flatMap Move.reaching = xs := by
  induction ms generalizing xs with
  | nil => exact ⟨[], List.prefix_refl _, (List.prefix_nil.1 h).symm⟩
  | cons m ms ih =>
      rw [List.flatMap_cons] at h
      rcases m.reaching_cases with hm | ⟨x, hm⟩
      · rw [hm, List.nil_append] at h
        obtain ⟨front, hfront, rfl⟩ := ih h
        exact ⟨m :: front, (List.prefix_cons_inj m).2 hfront, by rw [List.flatMap_cons, hm]; rfl⟩
      · rw [hm, List.singleton_append] at h
        rcases List.prefix_cons_iff.1 h with rfl | ⟨xs', rfl, hxs'⟩
        · exact ⟨[], List.nil_prefix, rfl⟩
        · obtain ⟨front, hfront, rfl⟩ := ih hxs'
          exact ⟨m :: front, (List.prefix_cons_inj m).2 hfront,
            by rw [List.flatMap_cons, hm]; rfl⟩

namespace History

variable {h : History} {t : Nat} {r : Run}

/-- A run that comes to nothing has not told its host that it is done. -/
theorem Shows.not_done {used : List Nat} (hshows : Shows t r h) (hs : Sound used h)
    (hnone : r.outcome? = none) (o : Outcome) : .done o ∉ Act.events (h.actsOf t) := by
  intro hmem
  cases hover : r.isOver with
  | true =>
      have hresults := hshows.results
      rw [hover, hnone, if_pos rfl] at hresults
      have hentry : (t, none) ∈ h.desk.results := by
        have hmem' : none ∈ h.resultsOf t := hresults ▸ List.mem_cons_self
        obtain ⟨⟨u, result⟩, hentry, rfl⟩ := List.mem_map.1 hmem'
        obtain ⟨hentry, hticket⟩ := List.mem_filter.1 hentry
        rw [beq_iff_eq] at hticket
        exact hticket ▸ hentry
      obtain ⟨earlier, last, hevents, hearlier, ⟨o', ho', -⟩ | ⟨-, m, rfl⟩⟩ :=
        (hs.settled t none hentry).2.events_eq
      · cases ho'
      · rw [hevents] at hmem
        rcases List.mem_append.1 hmem with hmem | hmem
        · cases hearlier _ hmem
        · cases List.mem_singleton.1 hmem
  | false =>
      have hbegun := (hs.active t _ (hshows.active hover)).2.2.2.2
      cases hbegun.not_isTerminal _ hmem

/-- A request whose run comes to nothing has no outcome, and nobody is told of one. -/
theorem Shows.comes_to_nothing {used : List Nat} (hshows : Shows t r h) (hs : Sound used h)
    (hnone : r.outcome? = none) :
    (∀ o, some o ∉ h.resultsOf t) ∧ ∀ o, .done o ∉ Act.events (h.actsOf t) := by
  refine ⟨fun o hmem => ?_, hshows.not_done hs hnone⟩
  rw [hshows.results, hnone] at hmem
  split at hmem
  · cases List.mem_singleton.1 hmem
  · cases hmem

section Admitted

variable {settings : Settings} {before later : List Move} {ticket : Nat} {name : Text}
  {request : Request} {host : Host}

/-- After every part of the later moves, what is shown of the request is what its run does alone. -/
theorem shows_until
    (hd : (Move.tickets (before ++ .submit ticket name request host :: later)).Nodup)
    (hfree : ((start settings).after before).desk.isBusy = false) {front : List Move}
    (hfront : front <+: later) :
    Shows ticket ((Run.begin settings name request host).after (front.flatMap Move.reaching))
      ((start settings).after (before ++ .submit ticket name request host :: front)) := by
  obtain ⟨back, rfl⟩ := hfront
  refine shows_admitted (hd.sublist ?_) hfree
  exact List.Sublist.filterMap _ (((List.sublist_append_left front back).cons_cons _).append_left _)

theorem nothing_of_cancelled
    (hd : (Move.tickets (before ++ .submit ticket name request host :: later)).Nodup)
    (hfree : ((start settings).after before).desk.isBusy = false)
    (hcancelled : ((Run.begin settings name request host).after
      (later.flatMap Move.reaching)).scene.cancelled = true) :
    let h := (start settings).after (before ++ .submit ticket name request host :: later)
    (∀ o, some o ∉ h.resultsOf ticket) ∧ ∀ o, .done o ∉ Act.events (h.actsOf ticket) := by
  have hsound := (sound_start settings).after
    (before ++ .submit ticket name request host :: later) (by rwa [List.nil_append])
  have hheedful := Run.heedful_after_begin settings name request host (later.flatMap Move.reaching)
  exact (shows_until hd hfree (List.prefix_refl later)).comes_to_nothing hsound
    (hheedful.outcome?_eq_none hcancelled)

/-- The request on its way is cancelled from outside. -/
theorem cancelled_from_outside
    (hd : (Move.tickets (before ++ .submit ticket name request host :: later)).Nodup)
    (hfree : ((start settings).after before).desk.isBusy = false) {front back : List Move}
    {m : Move} {r : Run} (hlater : later = front ++ m :: back) (hm : m.reaching = [.cancel])
    (hactive : ((start settings).after (before ++
      .submit ticket name request host :: front)).desk.active = some (ticket, r)) :
    ((Run.begin settings name request host).after
      (later.flatMap Move.reaching)).scene.cancelled = true ∧
    ∃ new, ((start settings).after (before ++
        .submit ticket name request host :: later)).actsOf ticket =
      ((start settings).after (before ++
        .submit ticket name request host :: front)).actsOf ticket ++ new ∧
      (Act.called new = [] ∨ ∃ c, r.entered? = some c ∧ Act.called new = [c]) := by
  have hall := shows_until hd hfree (List.prefix_refl later)
  have hfront := shows_until hd hfree ⟨m :: back, hlater.symm⟩
  have hopen : ((Run.begin settings name request host).after
      (front.flatMap Move.reaching)).isOver = false := by
    rw [← Bool.not_eq_true]
    exact fun hover => hfront.left hover r hactive
  rw [hfront.active hopen, Option.some.injEq, Prod.mk.injEq] at hactive
  have hsplit : (Run.begin settings name request host).after (later.flatMap Move.reaching) =
      (((Run.begin settings name request host).after (front.flatMap Move.reaching)).step
        .cancel).after (back.flatMap Move.reaching) := by
    rw [hlater, List.flatMap_append, List.flatMap_cons, hm, Run.after_append]
    rfl
  obtain ⟨hcancelled, new, hacts, hcalled⟩ := (Run.heedful_after_begin settings name request host
    (front.flatMap Move.reaching)).cancelled_after hopen (back.flatMap Move.reaching)
  rw [← hsplit] at hcancelled hacts
  refine ⟨hcancelled, new.reverse, ?_, hactive.2 ▸ hcalled⟩
  rw [hall.acts, hfront.acts, hacts, List.reverse_append]

/-- The host of the request cancels it when it is told an event. -/
theorem cancelled_upon_event
    (hd : (Move.tickets (before ++ .submit ticket name request host :: later)).Nodup)
    (hfree : ((start settings).after before).desk.isBusy = false) {old new : List Act} {e : Event}
    (hacts : ((start settings).after (before ++
      .submit ticket name request host :: later)).actsOf ticket = old ++ .event e :: new)
    (hhost : host (e :: (Act.events old).reverse) = .cancel) (hdone : ∀ o, e ≠ .done o) :
    ((Run.begin settings name request host).after
      (later.flatMap Move.reaching)).scene.cancelled = true ∧
    (Act.called new = [] ∨ ∃ front r c, front <+: later ∧
      ((start settings).after (before ++
        .submit ticket name request host :: front)).desk.active = some (ticket, r) ∧
      ((start settings).after (before ++
        .submit ticket name request host :: front)).actsOf ticket <+: old ∧
      r.entered? = some c ∧ Act.called new = [c]) := by
  have hall := shows_until hd hfree (List.prefix_refl later)
  have hacts' : ((Run.begin settings name request host).after
      (later.flatMap Move.reaching)).scene.acts = new.reverse ++ .event e :: old.reverse := by
    rw [hall.acts, List.reverse_eq_iff] at hacts
    rw [hacts]
    simp
  have hhost' : host (e :: Act.events old.reverse) = .cancel := by
    rwa [Act.events_reverse]
  obtain ⟨hcancelled, hcalled⟩ :=
    Run.cancelled_by_host settings name request host _ hacts' hhost' hdone
  rw [List.reverse_reverse] at hcalled
  refine ⟨hcancelled, ?_⟩
  rcases hcalled with hnone | ⟨xs, c, hxs, hentered, hsuffix, hone⟩
  · exact Or.inl hnone
  · -- the run entered the call after some signals; the desk was there after some of the moves
    obtain ⟨front, hprefix, rfl⟩ := Move.exists_prefix hxs
    have hfront := shows_until hd hfree hprefix
    refine Or.inr ⟨front, _, c, hprefix, hfront.active (Run.isOver_of_entered? hentered), ?_,
      hentered, hone⟩
    rw [hfront.acts]
    exact List.reverse_suffix.1 (by rwa [List.reverse_reverse])

end Admitted

/-- **A request that was cancelled does not end with an outcome, and no later call is made for it.**
It may have been cancelled from outside while it was on its way, or by its own host when it was told
an event. In both cases at most the call that was entered by then reaches the engine. -/
theorem cancelled_comes_to_nothing {settings : Settings} {before later : List Move} {ticket : Nat}
    {name : Text} {request : Request} {host : Host}
    (hd : (Move.tickets (before ++ .submit ticket name request host :: later)).Nodup)
    (hfree : ((start settings).after before).desk.isBusy = false) :
    let upTo (ms : List Move) :=
      (start settings).after (before ++ .submit ticket name request host :: ms)
    let Nothing := (∀ o, some o ∉ (upTo later).resultsOf ticket) ∧
      ∀ o, .done o ∉ Act.events ((upTo later).actsOf ticket)
    (∀ front m back r, later = front ++ m :: back → m.reaching = [.cancel] →
      (upTo front).desk.active = some (ticket, r) →
        Nothing ∧ ∃ new, (upTo later).actsOf ticket = (upTo front).actsOf ticket ++ new ∧
          (Act.called new = [] ∨ ∃ c, r.entered? = some c ∧ Act.called new = [c])) ∧
    (∀ old e new, (upTo later).actsOf ticket = old ++ .event e :: new →
      host (e :: (Act.events old).reverse) = .cancel → (∀ o, e ≠ .done o) →
        Nothing ∧ (Act.called new = [] ∨ ∃ front r c, front <+: later ∧
          (upTo front).desk.active = some (ticket, r) ∧
          (upTo front).actsOf ticket <+: old ∧ r.entered? = some c ∧ Act.called new = [c])) := by
  intro upTo Nothing
  refine ⟨fun front m back r hlater hm hactive => ?_, fun old e new hacts hhost hdone => ?_⟩
  · obtain ⟨hcancelled, hcalled⟩ := cancelled_from_outside hd hfree hlater hm hactive
    exact ⟨nothing_of_cancelled hd hfree hcancelled, hcalled⟩
  · obtain ⟨hcancelled, hcalled⟩ := cancelled_upon_event hd hfree hacts hhost hdone
    exact ⟨nothing_of_cancelled hd hfree hcancelled, hcalled⟩

/-- A request is cancelled when its first call is entered and has not reached the engine. That call
is still made, and it is the only one. -/
theorem cancelled_before_first_call :
    let request : Request := { code := "a = 1".toList, code_filled := by decide }
    let moves : List Move := [.signal .cancel, .signal .resume, .signal .resume, .signal .resume,
      .signal .resume]
    let h := (start {}).after (.submit 0 [] request (fun _ => .pass) :: moves)
    h.desk.isBusy = false ∧ (Act.called (h.actsOf 0)).length = 1 ∧
      (∀ o, some o ∉ h.resultsOf 0) ∧ ∀ o, .done o ∉ Act.events (h.actsOf 0) := by
  intro request moves h
  have hfree : h.desk.isBusy = false := by decide +kernel
  have hone : (Act.called (h.actsOf 0)).length = 1 := by decide +kernel
  have hticket : (((start {}).after [.submit 0 [] request fun _ => .pass]).desk.active.map
      (·.1)) = some 0 := by decide +kernel
  obtain ⟨⟨ticket, r⟩, hactive, hzero⟩ := Option.map_eq_some_iff.1 hticket
  have hzero' : ticket = 0 := hzero
  subst hzero'
  have hspec := (@cancelled_comes_to_nothing {} [] moves 0 [] request (fun _ => .pass) (by decide)
    rfl).1 [] (.signal .cancel) _ r rfl rfl hactive
  exact ⟨hfree, hone, hspec.1⟩

end History
end Refinery
