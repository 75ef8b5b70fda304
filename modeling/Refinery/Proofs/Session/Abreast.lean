import Refinery.Proofs.Session.Cancel
import Refinery.Proofs.Session.Solo
import Refinery.Proofs.Session.Story

/-!
Runs that are abreast. Of two runs of one request, the second is told what the first is told but for
hints, asks for the same, and stands where it stands; nobody cancels the second, and it is told by a
host that lets everything pass. Every step that leaves the first one going keeps them abreast.
-/

namespace Refinery

namespace Scene

variable {s s' : Scene}

@[simp] theorem hint_tells (s : Scene) (es : List Event) :
    (s.tells es).context.hint = s.context.hint := by
  induction es with
  | nil => rfl
  | cons e es ih => rw [tells_cons, tell, hint_emit, ih]

/-- The same was heard in both scenes, and the same was called. Nobody cancels in the second. -/
structure Abreast (s s' : Scene) : Prop where
  unfailing : s.Unfailing
  calm : s'.Calm
  calls : s'.calls = s.calls
  called : Act.called s'.acts = Act.called s.acts
  heard : Act.heard s'.acts = Act.heard s.acts
  hint_lt : s.context.hint < hints.length
  hint_lt' : s'.context.hint < hints.length

theorem Abreast.act (h : Abreast s s') (a : Act) : Abreast (s.act a) (s'.act a) where
  unfailing := unfailing_congr h.unfailing rfl
  calm := h.calm.act a
  calls := h.calls
  called := by
    show Act.called ([a] ++ s'.acts) = Act.called ([a] ++ s.acts)
    rw [Act.called_append, Act.called_append, h.called]
  heard := by
    show Act.heard ([a] ++ s'.acts) = Act.heard ([a] ++ s.acts)
    rw [Act.heard_append, Act.heard_append, h.heard]
  hint_lt := h.hint_lt
  hint_lt' := h.hint_lt'

theorem Abreast.tells (h : Abreast s s') (es : List Event) :
    Abreast (s.tells es) (s'.tells es) where
  unfailing := by
    induction es with
    | nil => exact h.unfailing
    | cons e es ih => exact ih.tell e
  calm := h.calm.tells es
  calls := by simp [h.calls]
  called := by simp [h.called]
  heard := by
    rw [← Act.heard_marks, marks_tells, ← Act.heard_marks (s.tells es).acts, marks_tells,
      Act.heard_append, Act.heard_append, Act.heard_marks, Act.heard_marks, h.heard]
  hint_lt := by simpa using h.hint_lt
  hint_lt' := by simpa using h.hint_lt'

theorem Abreast.tell (h : Abreast s s') (e : Event) : Abreast (s.tell e) (s'.tell e) := h.tells [e]

theorem heard_tell_hint (s : Scene) {i : Nat} (hi : i < hints.length) :
    Act.heard (s.tell (.substage (.hint i))).acts = Act.heard s.acts := by
  rw [← Act.heard_marks, marks_tell, Act.heard_event, Event.isHint_hint hi, if_pos rfl,
    Act.heard_marks]

/-- A hint that is told in the first scene is not heard. -/
theorem Abreast.hint (h : Abreast s s') {i : Nat} (hi : i < hints.length) :
    Abreast (s.tell (.substage (.hint i))) s' where
  unfailing := h.unfailing.tell _
  calm := h.calm
  calls := by rw [calls_tell, h.calls]
  called := by rw [called_tell, h.called]
  heard := by rw [heard_tell_hint s hi, h.heard]
  hint_lt := by simpa [Scene.tell] using h.hint_lt
  hint_lt' := h.hint_lt'

/-- Nor is one that is told in the second scene. -/
theorem Abreast.hint' (h : Abreast s s') {i : Nat} (hi : i < hints.length) :
    Abreast s (s'.tell (.substage (.hint i))) where
  unfailing := h.unfailing
  calm := h.calm.tell _
  calls := by rw [calls_tell, h.calls]
  called := by rw [called_tell, h.called]
  heard := by rw [heard_tell_hint s' hi, h.heard]
  hint_lt := h.hint_lt
  hint_lt' := by simpa [Scene.tell] using h.hint_lt'

theorem Abreast.turn (h : Abreast s s') :
    Abreast { s with context := s.context.turn hints.length } s' :=
  ⟨unfailing_congr h.unfailing rfl, h.calm, h.calls, h.called, h.heard,
    Nat.mod_lt _ (by decide), h.hint_lt'⟩

theorem Abreast.dismiss (h : Abreast s s') :
    Abreast { s with admitted := false } { s' with admitted := false } :=
  ⟨unfailing_congr h.unfailing rfl, ⟨h.calm.going, h.calm.passes⟩, h.calls, h.called, h.heard,
    h.hint_lt, h.hint_lt'⟩

theorem Abreast.hearing (h : Abreast s s') (g : Generation) {x : Signal} (hx : x ≠ .cancel) :
    Abreast (g.hearing s x) (g.hearing s' x) := by
  unfold Generation.hearing
  split
  · split
    · exact ⟨unfailing_congr h.unfailing rfl, h.calm.attach g.number, h.calls, h.called, h.heard,
        h.hint_lt, h.hint_lt'⟩
    · exact h
  · exact absurd rfl hx
  · exact h

theorem Abreast.release (h : Abreast s s') : Abreast s.release s'.release where
  unfailing := unfailing_congr h.unfailing (host_release s)
  calm := h.calm.release
  calls := by simp [h.calls]
  called := by simp [h.called]
  heard := by
    rw [← Act.heard_marks, marks_release, ← Act.heard_marks s.release.acts, marks_release,
      Act.heard_marks, Act.heard_marks, h.heard]
  hint_lt := by simpa using h.hint_lt
  hint_lt' := by simpa using h.hint_lt'

theorem Abreast.call (h : Abreast s s') (prompt : Text) (options : SamplingOptions) :
    Abreast (s.call prompt options).1 (s'.call prompt options).1 where
  unfailing := unfailing_congr h.unfailing rfl
  calm := h.calm.call prompt options
  calls := congrArg (· + 1) h.calls
  called := congrArg ((prompt, options) :: ·) h.called
  heard := h.heard
  hint_lt := h.hint_lt
  hint_lt' := h.hint_lt'

theorem accompanying_abreast : Accompanying Abreast :=
  ⟨Abreast.unfailing, Abreast.calm, Abreast.calls, Abreast.tells, Abreast.hearing, Abreast.release,
    Abreast.call⟩

end Scene

namespace Run

variable {r r' : Run}

/-- Both runs have the same task and stand at the same place, in scenes that are abreast. -/
structure Abreast (r r' : Run) : Prop where
  same : SameTask r r'
  scene : r.scene.Abreast r'.scene
  control : r'.control = r.control

namespace Abreast

theorem tell (h : Abreast r r') (e : Event) : Abreast (r.tell e) (r'.tell e) :=
  ⟨h.same, h.scene.tell e, h.control⟩

theorem phase (h : Abreast r r') (p : Phase) : Abreast (r.phase p) (r'.phase p) :=
  ⟨h.same, h.scene.act _, h.control⟩

theorem hint (h : Abreast r r') : Abreast (r.tell (.substage (.hint r.scene.context.hint)))
    (r'.tell (.substage (.hint r'.scene.context.hint))) :=
  ⟨h.same, (h.scene.hint h.scene.hint_lt).hint' h.scene.hint_lt', h.control⟩

theorem unbind_dismiss (h : Abreast r r') : Abreast r.dismiss.unbind r'.dismiss.unbind :=
  ⟨h.same, h.scene.dismiss.act _, h.control⟩

theorem goTo (h : Abreast r r') (c : Control) :
    Abreast { r with control := c } { r' with control := c } :=
  ⟨h.same, h.scene, rfl⟩

theorem fail (h : Abreast r r') (why : Failure) : Abreast (r.fail why) (r'.fail why) :=
  (((h.phase (verdictOn why).1).tell (.error (verdictOn why).2)).unbind_dismiss).goTo (.ended none)

theorem going_of_succeed {o : Outcome} (hgoing : (r.succeed o).scene.cancelled = false) :
    r.scene.cancelled = false := by
  refine Bool.eq_false_iff.2 fun hcancelled => ?_
  rw [cancelled_succeed hcancelled] at hgoing
  cases hgoing

theorem succeed (h : Abreast r r') {o : Outcome}
    (hgoing : (r.succeed o).scene.cancelled = false) : Abreast (r.succeed o) (r'.succeed o) := by
  have hr := going_of_succeed hgoing
  rw [Run.succeed, Run.succeed, if_neg (by simp [hr]), if_neg (by simp [h.scene.calm.going])]
  exact (((h.phase .done).unbind_dismiss).tell (.done o)).goTo (.ended (some o))

theorem withLadder (h : Abreast r r') (job : Job) (l : Ladder) :
    Abreast (r.withLadder job l) (r'.withLadder job l) := by
  unfold Run.withLadder
  split
  · exact h.goTo _
  · exact h.goTo _

theorem enter (h : Abreast r r') (hgoing : r.scene.cancelled = false) (job : Job) (e : Errand)
    (level : Int) (options : SamplingOptions) :
    Abreast (r.enter job e level options) (r'.enter job e level options) := by
  rw [enter_of_going job e level options hgoing,
    enter_of_going job e level options h.scene.calm.going]
  exact h.goTo _

theorem ask (h : Abreast r r') {job : Job} {code : Text} {report : Report} {level : Int}
    {insist : Bool} {context : Option Text}
    (hgoing : (r.ask job code report level insist context).scene.cancelled = false) :
    Abreast (r.ask job code report level insist context)
      (r'.ask job code report level insist context) := by
  have herrand : r'.errandOf code report insist context = r.errandOf code report insist context := by
    simp only [errandOf, h.same.1, h.same.2.1]
  have hoptions : r'.optionsOf code = r.optionsOf code := by
    simp only [optionsOf, h.same.1, h.same.2.1]
  cases insist with
  | true =>
      have hwriting := h.phase .generating
      show Abreast ((r.phase .generating).enter job (r.errandOf code report true context) level
        (r.optionsOf code)) ((r'.phase .generating).enter job (r'.errandOf code report true context)
        level (r'.optionsOf code))
      rw [herrand, hoptions]
      exact hwriting.enter (by simpa [Run.ask] using hgoing) job _ level _
  | false =>
      have hwriting := (h.phase .generating).hint
      show Abreast (Run.enter _ job (r.errandOf code report false context) level (r.optionsOf code))
        (Run.enter _ job (r'.errandOf code report false context) level (r'.optionsOf code))
      rw [herrand, hoptions]
      exact hwriting.enter (by simpa [Run.ask] using hgoing) job _ level _

theorem askPart (h : Abreast r r') {p : Parts} (hgoing : (r.askPart p).scene.cancelled = false) :
    Abreast (r.askPart p) (r'.askPart p) := by
  have hr : ¬ r.scene.cancelled = true := by
    intro hcancelled
    rw [Run.askPart, if_pos hcancelled, cancelled_fail hcancelled] at hgoing
    cases hgoing
  have hr' : ¬ r'.scene.cancelled = true := by simp [h.scene.calm.going]
  rw [Run.askPart, if_neg hr] at hgoing ⊢
  rw [Run.askPart, if_neg hr']
  exact (h.tell _).ask hgoing

theorem afterFirst (h : Abreast r r') {output : Text}
    (hgoing : (r.afterFirst output).scene.cancelled = false) :
    Abreast (r.afterFirst output) (r'.afterFirst output) := by
  have htold := (h.phase .validating).tell (.stage .finalizing)
  unfold Run.afterFirst at hgoing ⊢
  simp only at hgoing ⊢
  rw [htold.same.judge output, htold.same.2.2]
  generalize (r.phase .validating).tell (.stage .finalizing) = r₁ at htold hgoing ⊢
  generalize (r'.phase .validating).tell (.stage .finalizing) = r₁' at htold ⊢
  split
  · next hagain =>
      rw [if_pos hagain] at hgoing
      by_cases hcancelled : r₁.scene.cancelled = true
      · rw [if_pos hcancelled, cancelled_fail hcancelled] at hgoing
        cases hgoing
      · have hgoing' : ¬ r₁'.scene.cancelled = true := by simp [htold.scene.calm.going]
        have hretrying := (((htold.phase .retrying).tell (.stage .optimizing)).tell
          (.substage .retrying)).tell .retryClear
        rw [if_neg hcancelled] at hgoing ⊢
        rw [if_neg hgoing', hretrying.same.2.1, hretrying.same.2.2]
        exact hretrying.ask hgoing
  · next honce =>
      rw [if_neg honce] at hgoing
      exact htold.succeed hgoing

theorem afterSecond (h : Abreast r r') {first : Outcome} {output : Option Text}
    (hgoing : (r.afterSecond first output).scene.cancelled = false) :
    Abreast (r.afterSecond first output) (r'.afterSecond first output) := by
  have htold := (h.phase .validating).tell (.stage .finalizing)
  cases output with
  | none => exact htold.succeed hgoing
  | some output =>
      unfold Run.afterSecond at hgoing ⊢
      simp only at hgoing ⊢
      rw [htold.same.judge output]
      exact htold.succeed hgoing

theorem afterPart (h : Abreast r r') {p : Parts} {output : Text}
    (hgoing : (r.afterPart p output).scene.cancelled = false) :
    Abreast (r.afterPart p output) (r'.afterPart p output) := by
  have hvalidating := h.phase .validating
  unfold Run.afterPart at hgoing ⊢
  simp only at hgoing ⊢
  rw [hvalidating.same.partText p output]
  have hkept : Abreast
      (if ((r.phase .validating).partText p output).2 then
        (r.phase .validating).tell (.substage .keptChunk) else r.phase .validating)
      (if ((r.phase .validating).partText p output).2 then
        (r'.phase .validating).tell (.substage .keptChunk) else r'.phase .validating) := by
    split
    · exact hvalidating.tell _
    · exact hvalidating
  generalize (r.phase .validating).partText p output = piece at hkept hgoing ⊢
  generalize (if piece.2 then (r.phase .validating).tell (.substage .keptChunk)
    else r.phase .validating) = r₁ at hkept hgoing ⊢
  generalize (if piece.2 then (r'.phase .validating).tell (.substage .keptChunk)
    else r'.phase .validating) = r₁' at hkept ⊢
  cases hlater : p.later with
  | nil =>
      simp only [hlater] at hgoing ⊢
      have hfinal := hkept.tell (.stage .finalizing)
      unfold Run.assemble at hgoing ⊢
      simp only at hgoing ⊢
      rw [hfinal.same.2.1, hfinal.same.2.2]
      exact hfinal.succeed hgoing
  | cons c later =>
      have hnext := hkept.tell (.stage .refining)
      simp only [hnext.same.partReport c]
      exact hnext.goTo _

theorem afterLadder (h : Abreast r r') {job : Job} {result : Except Failure Text}
    (hgoing : (r.afterLadder job result).scene.cancelled = false) :
    Abreast (r.afterLadder job result) (r'.afterLadder job result) := by
  have htold := h.tell .streamIdle
  unfold Run.afterLadder at hgoing ⊢
  simp only at hgoing ⊢
  split at hgoing
  · exact htold.afterFirst hgoing
  · exact htold.afterSecond hgoing
  · exact htold.afterSecond hgoing
  · exact htold.afterPart hgoing
  · exact htold.fail _

/-- **Every signal but a hint or a cancellation that leaves the first run going keeps the runs
abreast.** -/
theorem step (h : Abreast r r') {x : Signal} (hcancel : x ≠ .cancel) (htick : x ≠ .tick)
    (hgoing : (r.step x).scene.cancelled = false) : Abreast (r.step x) (r'.step x) := by
  have hcontrol' := h.control
  cases hcontrol : r.control with
  | asking job l =>
      rw [hcontrol] at hcontrol'
      rw [step_asking hcontrol hcancel htick, scene_withLadder] at hgoing
      obtain ⟨hladder, hscene⟩ :=
        Ladder.along_step Scene.accompanying_abreast h.scene hcancel hgoing
      have hsettings : l.step r'.settings r'.scene x = l.step r.settings r'.scene x := by
        rw [h.same.1]
      have hstep : Abreast { r with scene := (l.step r.settings r.scene x).2 }
          { r' with scene := (l.step r.settings r'.scene x).2 } := ⟨h.same, hscene, h.control⟩
      rw [step_asking hcontrol hcancel htick, step_asking hcontrol' hcancel htick, hsettings,
        hladder]
      exact hstep.withLadder job _
  | idling job result =>
      rw [hcontrol] at hcontrol'
      unfold Run.step at hgoing ⊢
      cases x with
      | cancel => exact absurd rfl hcancel
      | resume =>
          simp only [hcontrol, hcontrol'] at hgoing ⊢
          exact h.afterLadder hgoing
      | _ =>
          simp only [hcontrol, hcontrol']
          exact h
  | pausing p =>
      rw [hcontrol] at hcontrol'
      unfold Run.step at hgoing ⊢
      cases x with
      | cancel => exact absurd rfl hcancel
      | resume =>
          simp only [hcontrol, hcontrol'] at hgoing ⊢
          exact h.askPart hgoing
      | _ =>
          simp only [hcontrol, hcontrol']
          exact h
  | ended o =>
      rw [hcontrol] at hcontrol'
      unfold Run.step
      cases x with
      | cancel => exact absurd rfl hcancel
      | _ =>
          simp only [hcontrol, hcontrol']
          exact h

end Abreast

theorem abreast_opened (settings : Settings) (name name' : Text) (request : Request) (host : Host) :
    Abreast (opened settings name request host)
      (opened settings name' request fun _ => .pass) where
  same := ⟨rfl, rfl, rfl⟩
  scene := ⟨Scene.unfailing_shielded (opened settings name request host).scene host,
    ⟨rfl, fun _ => rfl⟩, rfl, rfl, rfl,
    show 0 < hints.length by decide, show 0 < hints.length by decide⟩
  control := rfl

/-- A run that is not cancelled by its beginning begins abreast of one that nobody cancels. -/
theorem abreast_begin {settings : Settings} {name : Text} {request : Request} {host : Host}
    (hgoing : (begin settings name request host).scene.cancelled = false) (name' : Text) :
    Abreast (begin settings name request host) (begin settings name' request fun _ => .pass) := by
  have htold := ((abreast_opened settings name name' request host).phase .analyzing).tell
    (.stage .understanding)
  unfold begin at hgoing ⊢
  simp only at hgoing ⊢
  split
  · next c d later hchunks =>
      simp only [hchunks] at hgoing
      exact ((htold.phase .chunking).tell (.stage .optimizing)).askPart hgoing
  · next hfew =>
      split at hgoing
      · next c d later hchunks => exact absurd hchunks (hfew c d later)
      · exact (htold.tell (.stage .optimizing)).ask hgoing

end Run
end Refinery
