import Refinery.Proofs.Session.Ladder

/-!
The transcript of a ladder: what the engine hands over to it, among what the request does in front of
others, in the order in which it goes on.
-/

namespace Refinery

open Inference

/-- One thing that goes on: the engine hands over a handle or a token, or the request acts. -/
inductive Entry where
  | handle (number : Nat)
  | token (f : Fragment)
  | act (a : Act)

namespace Entry

def token? : Entry → Option Fragment
  | token f => some f
  | _ => none

def event? : Entry → Option Event
  | act a => a.event?
  | _ => none

/-- Whether the text that was shown so far is void from here on. -/
def isClear : Entry → Bool
  | act (.event .retryClear) => true
  | _ => false

def tokens (entries : List Entry) : List Fragment := entries.filterMap token?

def events (entries : List Entry) : List Event := entries.filterMap event?

@[simp] theorem tokens_append (as bs : List Entry) : tokens (as ++ bs) = tokens as ++ tokens bs :=
  List.filterMap_append

@[simp] theorem events_append (as bs : List Entry) : events (as ++ bs) = events as ++ events bs :=
  List.filterMap_append

@[simp] theorem tokens_map_act (acts : List Act) : tokens (acts.map act) = [] := by
  rw [tokens, List.filterMap_map]
  exact List.filterMap_eq_nil_iff.2 fun _ _ => rfl

@[simp] theorem events_map_act (acts : List Act) : events (acts.map act) = Act.events acts :=
  List.filterMap_map

theorem event?_of_isClear {e : Entry} (h : e.isClear = true) : e.event? = some .retryClear := by
  unfold isClear at h
  split at h
  · rfl
  · cases h

theorem eq_of_event? {e : Entry} {event : Event} (h : e.event? = some event) :
    e = act (.event event) := by
  cases e with
  | act a =>
      cases a with
      | event e =>
          cases h
          rfl
      | _ => cases h
  | _ => cases h

end Entry

/-- The acts that were done between two scenes, oldest first. -/
def Scene.since (s s' : Scene) : List Act :=
  (s'.acts.take (s'.acts.length - s.acts.length)).reverse

theorem Scene.since_eq {s s' : Scene} {new : List Act} (h : s'.acts = new ++ s.acts) :
    s.since s' = new.reverse := by
  rw [since, h, List.length_append, Nat.add_sub_cancel, List.take_left]

/-- What the engine hands over to the reader of a call by a signal. -/
def Generation.handed (g : Generation) (x : Signal) : List Entry :=
  match g.reader, x with
  | .opening, .opened => [.handle g.number]
  | .streaming, .token f => [.token f]
  | _, _ => []

theorem Generation.handed_eq_nil {g : Generation} {x : Signal}
    (hopened : g.reader = .opening → x ≠ .opened)
    (htoken : ∀ f, g.reader = .streaming → x ≠ .token f) : g.handed x = [] := by
  unfold handed
  split
  · next hreader => exact absurd rfl (hopened hreader)
  · next f hreader => exact absurd rfl (htoken f hreader)
  · rfl

theorem Generation.events_handed (g : Generation) (x : Signal) : Entry.events (g.handed x) = [] := by
  unfold handed
  split <;> rfl

def Ladder.handed (l : Ladder) (x : Signal) : List Entry :=
  match l.course with
  | .running g => g.handed x
  | _ => []

theorem Ladder.events_handed (l : Ladder) (x : Signal) : Entry.events (l.handed x) = [] := by
  unfold handed
  split
  · exact Generation.events_handed _ x
  · rfl

/-- What a reader makes of a signal, and what is handed over to it by that. -/
inductive Generation.Reads (settings : Settings) (g : Generation) (s : Scene) :
    Signal → List Entry → Generation × Scene → Prop
  | opens (hreader : g.reader = .opening) (hgoing : s.cancelled = false) :
      Reads settings g s .opened [.handle g.number]
        ({ g with reader := .streaming }, { s with context := s.context.attach g.number })
  | opensInVain (hreader : g.reader = .opening) (hcancelled : s.cancelled = true) :
      Reads settings g s .opened [.handle g.number]
        (g.finish none, { s with context := s.context.attach g.number })
  | takes (hreader : g.reader = .streaming) (f : Fragment) :
      Reads settings g s (.token f) [.token f] (g.token settings s f)
  | ends (hreader : g.reader = .streaming) : Reads settings g s .ended [] (g.ended s)
  | fails (x : Signal) (why : Failure) : Reads settings g s x [] (g.finish (some why), s)
  | settles (hreader : g.reader = .settling) :
      Reads settings g s .settled [] (g.finish none, s)
  | expires : Reads settings g s .expired [] ({ g with expired := true }, s)
  | cancels : Reads settings g s .cancel [] (g, s.cancel)
  | waits (x : Signal) : Reads settings g s x [] (g, s)

theorem Generation.reads_signal (settings : Settings) (g : Generation) (s : Scene) (x : Signal) :
    g.Reads settings s x (g.handed x) (g.signal settings s x) := by
  have hquiet : x ≠ .opened → (∀ f, x ≠ .token f) → g.handed x = [] :=
    fun hopened htoken => handed_eq_nil (fun _ => hopened) fun f _ => htoken f
  unfold signal
  split
  · next hreader =>
      have hhanded : g.handed .opened = [.handle g.number] := by simp only [handed, hreader]
      rw [hhanded]
      simp only
      split
      · next hcancelled => exact .opensInVain hreader hcancelled
      · next hgoing => exact .opens hreader (Bool.eq_false_iff.2 hgoing)
  · rw [hquiet nofun fun _ => nofun]
    exact .fails _ _
  · next f hreader =>
      have hhanded : g.handed (.token f) = [.token f] := by simp only [handed, hreader]
      rw [hhanded]
      exact .takes hreader f
  · next hreader =>
      rw [hquiet nofun fun _ => nofun]
      exact .ends hreader
  · rw [hquiet nofun fun _ => nofun]
    exact .fails _ _
  · next hreader =>
      rw [hquiet nofun fun _ => nofun]
      exact .settles hreader
  · rw [hquiet nofun fun _ => nofun]
    exact .fails _ _
  · rw [hquiet nofun fun _ => nofun]
    exact .expires
  · rw [hquiet nofun fun _ => nofun]
    exact .cancels
  · next hopened _ htoken _ _ _ _ =>
      rw [handed_eq_nil hopened htoken]
      exact .waits _

/-- What one step makes of a ladder, and what is handed over to it by that. -/
inductive Ladder.Goes (settings : Settings) (l : Ladder) (s : Scene) :
    Signal → List Entry → Ladder × Scene → Prop
  | turns {g : Generation} (hcourse : l.course = .running g) :
      Goes settings l s .resume [] (l.turn settings s g)
  | reads {g : Generation} {x : Signal} {handed : List Entry} {p : Generation × Scene}
      (hcourse : l.course = .running g) (h : g.Reads settings s x handed p) :
      Goes settings l s x handed ({ l with course := .running p.1 }, p.2)
  | proceeds {result : Except Failure Text} (hcourse : l.course = .closing result) :
      Goes settings l s .resume [] (l.proceed s result)
  | cancels (hcourse : ∀ g, l.course ≠ .running g) : Goes settings l s .cancel [] (l, s.cancel)
  | waits (x : Signal) (hcourse : ∀ g, l.course ≠ .running g) : Goes settings l s x [] (l, s)

/-- **Every step of a ladder is one of these.** -/
theorem Ladder.goes_step (settings : Settings) (l : Ladder) (s : Scene) (x : Signal) :
    l.Goes settings s x (l.handed x) (l.step settings s x) := by
  unfold handed step
  cases hcourse : l.course with
  | running g =>
      cases x with
      | resume =>
          have hhanded : g.handed .resume = [] :=
            Generation.handed_eq_nil (fun _ => nofun) fun _ _ => nofun
          simp only [hhanded]
          exact .turns hcourse
      | _ => exact .reads hcourse (g.reads_signal settings s _)
  | closing result =>
      have hrunning : ∀ g, l.course ≠ .running g := fun g h => by cases hcourse.symm.trans h
      cases x with
      | resume => exact .proceeds hcourse
      | cancel => exact .cancels hrunning
      | _ => exact .waits _ hrunning
  | ended result =>
      have hrunning : ∀ g, l.course ≠ .running g := fun g h => by cases hcourse.symm.trans h
      cases x with
      | cancel => exact .cancels hrunning
      | _ => exact .waits _ hrunning

/-- A ladder on its way, and all that went on, oldest first. -/
structure Transcript where
  ladder : Ladder
  scene : Scene
  entries : List Entry := []

namespace Transcript

variable {settings : Settings} {t : Transcript} {x : Signal}

def start (errand : Option Errand) (rung : Rung) (options : SamplingOptions) (scene : Scene) :
    Transcript :=
  { ladder := Ladder.start errand rung options scene, scene }

def take (settings : Settings) (t : Transcript) (x : Signal) : Transcript :=
  let (l, s) := t.ladder.step settings t.scene x
  ⟨l, s, t.entries ++ (t.ladder.handed x ++ (t.scene.since s).map .act)⟩

def after (settings : Settings) (t : Transcript) (xs : List Signal) : Transcript :=
  xs.foldl (take settings) t

theorem ladder_take : (t.take settings x).ladder = (t.ladder.step settings t.scene x).1 := rfl

theorem scene_take : (t.take settings x).scene = (t.ladder.step settings t.scene x).2 := rfl

/-- **What a signal adds to a transcript**: what is handed over by it, and then the acts that it
makes the ladder do. -/
theorem exists_entries_take (settings : Settings) (t : Transcript) (x : Signal) : ∃ acts : List Act,
    (t.take settings x).scene.acts = acts.reverse ++ t.scene.acts ∧
    (t.take settings x).scene.told = (Act.events acts).reverse ++ t.scene.told ∧
    (t.take settings x).entries = t.entries ++ (t.ladder.handed x ++ acts.map .act) := by
  obtain ⟨new, hacts, htold, -⟩ := (Ladder.grows_step settings t.ladder t.scene x).adds
  refine ⟨new.reverse, ?_, ?_, ?_⟩
  · rw [List.reverse_reverse, scene_take, hacts]
  · rw [Act.events_reverse, List.reverse_reverse, scene_take, htold]
  · rw [← Scene.since_eq hacts]
    rfl

/-- What every step preserves holds after any signals. -/
theorem after_induction {P : Transcript → Prop} (xs : List Signal) (h : P t)
    (hstep : ∀ t x, P t → P (t.take settings x)) : P (t.after settings xs) := by
  induction xs generalizing t with
  | nil => exact h
  | cons x xs ih => exact ih (hstep t x h)

end Transcript
end Refinery
