import Refinery.Proofs.Session.Grammar
import Refinery.Proofs.Session.Scene
import Refinery.Session.Generation

/-!
What the reader of a call makes of a signal. Where the host does not fail, the reader and the events
that it tells depend on the signal and on whether the request was cancelled, and on nothing else of
the scene. The events go on with the attempt that the call belongs to.
-/

namespace Refinery

open Grammar Inference

namespace Scene

/-- The host's failures do not reach the request. -/
def Unfailing (s : Scene) : Prop := ∀ told why, s.host told ≠ .fail why

/-- Tells the host some events; the newest is the first of them. -/
def tells (s : Scene) (es : List Event) : Scene := es.foldr (fun e s => s.tell e) s

variable {s : Scene}

theorem Unfailing.emit_eq (h : s.Unfailing) (e : Event) : s.emit e = (s.tell e, none) := by
  have hpass : (s.emit e).2 = none := by
    unfold emit
    simp only
    split
    · rfl
    · rfl
    · next why hfail => exact absurd hfail (h _ why)
  exact Prod.ext rfl hpass

theorem unfailing_congr {s s' : Scene} (h : s.Unfailing) (hhost : s'.host = s.host) :
    s'.Unfailing := by
  unfold Unfailing
  rwa [hhost]

theorem unfailing_shielded (s : Scene) (host : Host) :
    Unfailing { s with host := host.shielded } := by
  intro told why hfail
  simp only [Host.shielded] at hfail
  split at hfail
  · cases hfail
  · next hother => exact hother why hfail

theorem Unfailing.tell (h : s.Unfailing) (e : Event) : (s.tell e).Unfailing :=
  unfailing_congr h (host_emit s e)

@[simp] theorem tells_nil (s : Scene) : s.tells [] = s := rfl

@[simp] theorem tells_cons (s : Scene) (e : Event) (es : List Event) :
    s.tells (e :: es) = (s.tells es).tell e := rfl

theorem tells_append (s : Scene) (es fs : List Event) : s.tells (es ++ fs) = (s.tells fs).tells es :=
  List.foldr_append

@[simp] theorem marks_tells (s : Scene) (es : List Event) :
    Act.marks (s.tells es).acts = es.map .event ++ Act.marks s.acts := by
  induction es with
  | nil => rfl
  | cons e es ih => rw [tells_cons, marks_tell, ih, List.map_cons, List.cons_append]

@[simp] theorem calls_tell (s : Scene) (e : Event) : (s.tell e).calls = s.calls := calls_emit s e

@[simp] theorem calls_tells (s : Scene) (es : List Event) : (s.tells es).calls = s.calls := by
  induction es with
  | nil => rfl
  | cons e es ih => rw [tells_cons, calls_tell, ih]

@[simp] theorem called_tells (s : Scene) (es : List Event) :
    Act.called (s.tells es).acts = Act.called s.acts := by
  induction es with
  | nil => rfl
  | cons e es ih => rw [tells_cons, called_tell, ih]

end Scene

namespace Generation

/-- So much was told, newest first, of the attempt at hand and those before it. -/
structure Telling (g : Generation) (told : List Event) : Prop where
  attempts : Attempts (decide (g.count ≠ 0)) told
  preview : g.count = 0 → g.preview = []

/-- `g'` comes of `g` in telling some events, newest first. -/
structure Heard (g g' : Generation) (es : List Event) : Prop where
  prompt : g'.prompt = g.prompt
  options : g'.options = g.options
  entered : g'.reader = .entered → g.reader = .entered
  shown : ∀ e ∈ es, e.isHint = false
  telling : ∀ told, g.Telling told → g'.Telling (es ++ told)

variable {g g' g'' : Generation} {es fs : List Event}

theorem Heard.refl (g : Generation) : Heard g g [] :=
  ⟨rfl, rfl, id, by simp, fun _ h => h⟩

theorem Heard.trans (h : Heard g g' es) (h' : Heard g' g'' fs) : Heard g g'' (fs ++ es) where
  prompt := h'.prompt.trans h.prompt
  options := h'.options.trans h.options
  entered hr := h.entered (h'.entered hr)
  shown e he := (List.mem_append.1 he).elim (h'.shown e) (h.shown e)
  telling told ht := by
    rw [List.append_assoc]
    exact h'.telling _ (h.telling told ht)

theorem heard_finish (g : Generation) (failure : Option Failure) : Heard g (g.finish failure) [] :=
  ⟨rfl, rfl, nofun, by simp, fun _ h => ⟨h.attempts, h.preview⟩⟩

theorem heard_rest (settings : Settings) (g : Generation) : Heard g (g.rest settings) [] := by
  unfold rest
  split
  · exact Heard.refl g
  · split
    · exact heard_finish g _
    · split
      · exact ⟨rfl, rfl, id, by simp, fun _ h => ⟨h.attempts, h.preview⟩⟩
      · exact Heard.refl g

theorem exists_flush (hpreview : g.preview ≠ []) :
    ∃ g' es, Heard g g' es ∧ ∀ s : Scene, s.Unfailing → g.flush s = (g', s.tells es) := by
  cases hjoin : Fragment.join 0 g.preview with
  | error why =>
      refine ⟨g.finish (some why), [], heard_finish g _, fun s _ => ?_⟩
      simp only [flush, hjoin, Scene.tells_nil]
  | ok t =>
      refine ⟨{ g with preview := [], previewSize := 0 }, [.chunk t], ?_, fun s hs => ?_⟩
      · refine ⟨rfl, rfl, id, by simp [Event.isHint], fun told ht => ?_⟩
        have hcount : g.count ≠ 0 := fun h => hpreview (ht.preview h)
        have hattempts := ht.attempts
        rw [decide_eq_true hcount] at hattempts
        refine ⟨?_, fun _ => rfl⟩
        show Attempts (decide (g.count ≠ 0)) _
        rw [decide_eq_true hcount]
        exact hattempts.piece t
      · simp only [flush, hjoin, hs.emit_eq, Scene.tells_cons, Scene.tells_nil]

theorem exists_extend (flushChars : Int) (f : Fragment) (hcount : g.count ≠ 0) :
    ∃ g' es, Heard g g' es ∧
      ∀ s : Scene, s.Unfailing → g.extend flushChars s f = (g', s.tells es) := by
  cases hsize : f.size with
  | error why =>
      refine ⟨g.finish (some why), [], heard_finish g _, fun s _ => ?_⟩
      simp only [extend, hsize, Scene.tells_nil]
  | ok n =>
      let put : Generation :=
        { g with preview := g.preview ++ [f], previewSize := g.previewSize + n }
      have hput : Heard g put [] :=
        ⟨rfl, rfl, id, by simp, fun _ h => ⟨h.attempts, fun h => absurd h hcount⟩⟩
      by_cases hfull : flushChars ≤ put.previewSize
      · obtain ⟨g', es, hheard, hflush⟩ := exists_flush (g := put) (by simp [put])
        refine ⟨g', es ++ [], hput.trans hheard, fun s hs => ?_⟩
        simp only [extend, hsize]
        rw [if_pos hfull, List.append_nil]
        exact hflush s hs
      · refine ⟨put, [], hput, fun s _ => ?_⟩
        simp only [extend, hsize]
        rw [if_neg hfull, Scene.tells_nil]

/-- A token, where the request goes on or was cancelled. -/
theorem exists_token (settings : Settings) (g : Generation) (f : Fragment) (cancelled : Bool) :
    ∃ g' es, Heard g g' es ∧ ∀ s : Scene, s.Unfailing → s.cancelled = cancelled →
      g.token settings s f = (g', s.tells es) := by
  cases cancelled with
  | true =>
      refine ⟨g.finish none, [], heard_finish g _, fun s _ hcancelled => ?_⟩
      rw [token, if_pos hcancelled, Scene.tells_nil]
  | false =>
      let said : Generation := { g with output := g.output ++ f.asText, count := g.count + 1 }
      let begun : List Event := if g.count = 0 then [.streamActive] else []
      have hsaid : Heard g said begun := by
        refine ⟨rfl, rfl, id, ?_, fun told ht => ⟨?_, nofun⟩⟩
        · intro e he
          simp only [begun] at he
          split at he
          · rw [List.mem_singleton.1 he]
            rfl
          · cases he
        · have hattempts := ht.attempts
          by_cases hfirst : g.count = 0
          · rw [decide_eq_false (fun h => h hfirst)] at hattempts
            simpa [begun, hfirst, said] using hattempts.active
          · rw [decide_eq_true hfirst] at hattempts
            simpa [begun, hfirst, said] using hattempts
      obtain ⟨g', es, hheard, hextend⟩ :=
        exists_extend (g := said) settings.flushChars f (by simp [said])
      refine ⟨g'.rest settings, [] ++ (es ++ begun), (hsaid.trans hheard).trans
        (heard_rest settings g'), fun s hs hgoing => ?_⟩
      have hbegun : (if g.count = 0 then s.emit .streamActive else (s, none)) =
          (s.tells begun, none) := by
        simp only [begun]
        split
        · exact hs.emit_eq _
        · rfl
      have hunfailing : (s.tells begun).Unfailing := by
        simp only [begun]
        split
        · exact hs.tell _
        · exact hs
      have hgo : ¬ s.cancelled = true := by simp [hgoing]
      rw [token, if_neg hgo, List.nil_append, Scene.tells_append]
      simp only [hbegun, hextend _ hunfailing, said]

theorem exists_ended (g : Generation) :
    ∃ g' es, Heard g g' es ∧ ∀ s : Scene, s.Unfailing → g.ended s = (g', s.tells es) := by
  have hsent : ∃ g' es, Heard g g' es ∧ ∀ s : Scene, s.Unfailing →
      (if g.preview.isEmpty then (g, s) else g.flush s) = (g', s.tells es) := by
    by_cases hpreview : g.preview = []
    · exact ⟨g, [], Heard.refl g, fun s _ => by simp [hpreview]⟩
    · obtain ⟨g', es, hheard, hflush⟩ := exists_flush hpreview
      exact ⟨g', es, hheard, fun s hs => by simp [hpreview, hflush s hs]⟩
  obtain ⟨g₁, es, hheard, hsent⟩ := hsent
  by_cases hover : g₁.isOver = true
  · refine ⟨g₁, es, hheard, fun s hs => ?_⟩
    simp only [ended, hsent s hs, hover, if_true]
  · refine ⟨{ g₁ with reader := .settling }, [] ++ es, hheard.trans
      ⟨rfl, rfl, nofun, by simp, fun _ h => ⟨h.attempts, h.preview⟩⟩, fun s hs => ?_⟩
    simp only [ended, hsent s hs, hover, List.nil_append]
    rfl

/-- The scene in which a signal is heard: a handle is attached to it, or it is cancelled. -/
def hearing (g : Generation) (s : Scene) : Signal → Scene
  | .opened => match g.reader with
    | .opening => { s with context := s.context.attach g.number }
    | _ => s
  | .cancel => s.cancel
  | _ => s

/-- On a signal a reader tells events that go with what was told, whatever the scene is. -/
def Answers (settings : Settings) (g : Generation) (x : Signal) (cancelled : Bool) : Prop :=
  ∃ g' es, Heard g g' es ∧ ∀ s : Scene, s.Unfailing → s.cancelled = cancelled →
    g.signal settings s x = (g', (g.hearing s x).tells es)

section Answers
variable {settings : Settings} {g : Generation} {x : Signal} {cancelled : Bool}

theorem answers_of_stays (h : ∀ s, g.signal settings s x = (g, g.hearing s x)) :
    g.Answers settings x cancelled :=
  ⟨g, [], Heard.refl g, fun s _ _ => h s⟩

theorem answers_of_finish (failure : Option Failure)
    (h : ∀ s, g.signal settings s x = (g.finish failure, g.hearing s x)) :
    g.Answers settings x cancelled :=
  ⟨g.finish failure, [], heard_finish g failure, fun s _ _ => h s⟩

/-- The handle is attached before the flag is read. -/
theorem answers_opened (hreader : g.reader = .opening) :
    g.Answers settings .opened cancelled := by
  cases cancelled with
  | true =>
      refine ⟨g.finish none, [], heard_finish g none, fun s _ hcancelled => ?_⟩
      have hattached : Scene.cancelled { s with context := s.context.attach g.number } = true :=
        hcancelled
      simp [signal, hearing, hreader, hattached]
  | false =>
      refine ⟨{ g with reader := .streaming }, [],
        ⟨rfl, rfl, nofun, by simp, fun _ h => ⟨h.attempts, h.preview⟩⟩, fun s _ hgoing => ?_⟩
      have hattached : Scene.cancelled { s with context := s.context.attach g.number } = false :=
        hgoing
      simp [signal, hearing, hreader, hattached]

theorem answers_token (f : Fragment) (hreader : g.reader = .streaming) :
    g.Answers settings (.token f) cancelled := by
  obtain ⟨g', es, hheard, htoken⟩ := exists_token settings g f cancelled
  refine ⟨g', es, hheard, fun s hs hcancelled => ?_⟩
  simp [signal, hearing, hreader, htoken s hs hcancelled]

theorem answers_ended (hreader : g.reader = .streaming) :
    g.Answers settings .ended cancelled := by
  obtain ⟨g', es, hheard, hended⟩ := exists_ended g
  refine ⟨g', es, hheard, fun s hs _ => ?_⟩
  simp [signal, hearing, hreader, hended s hs]

theorem answers_expired : g.Answers settings .expired cancelled := by
  refine ⟨{ g with expired := true }, [],
    ⟨rfl, rfl, id, by simp, fun _ h => ⟨h.attempts, h.preview⟩⟩, fun s _ _ => ?_⟩
  unfold signal hearing
  cases g.reader <;> rfl

end Answers

/-- **What a reader makes of a signal.** One the reader does not wait for leaves it as it is. -/
theorem answers (settings : Settings) (g : Generation) (x : Signal) (cancelled : Bool) :
    g.Answers settings x cancelled := by
  cases x with
  | opened =>
      cases hreader : g.reader with
      | opening => exact answers_opened hreader
      | _ => exact answers_of_stays fun s => by simp [signal, hearing, hreader]
  | refused why =>
      cases hreader : g.reader with
      | opening => exact answers_of_finish (some why) fun s => by simp [signal, hearing, hreader]
      | _ => exact answers_of_stays fun s => by simp [signal, hearing, hreader]
  | token f =>
      cases hreader : g.reader with
      | streaming => exact answers_token f hreader
      | _ => exact answers_of_stays fun s => by simp [signal, hearing, hreader]
  | ended =>
      cases hreader : g.reader with
      | streaming => exact answers_ended hreader
      | _ => exact answers_of_stays fun s => by simp [signal, hearing, hreader]
  | broke why =>
      cases hreader : g.reader with
      | streaming => exact answers_of_finish (some why) fun s => by simp [signal, hearing, hreader]
      | _ => exact answers_of_stays fun s => by simp [signal, hearing, hreader]
  | settled =>
      cases hreader : g.reader with
      | settling => exact answers_of_finish none fun s => by simp [signal, hearing, hreader]
      | _ => exact answers_of_stays fun s => by simp [signal, hearing, hreader]
  | unsettled why =>
      cases hreader : g.reader with
      | settling => exact answers_of_finish (some why) fun s => by simp [signal, hearing, hreader]
      | _ => exact answers_of_stays fun s => by simp [signal, hearing, hreader]
  | expired => exact answers_expired
  | resume | tick | cancel =>
      refine answers_of_stays fun s => ?_
      unfold signal hearing
      cases g.reader <;> rfl

end Generation
end Refinery
