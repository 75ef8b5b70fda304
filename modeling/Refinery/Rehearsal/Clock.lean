import Refinery.Rehearsal.Engine
import Refinery.Session.Desk

/-!
Playing a session against a clock that starts at 0 and jumps to the next moment at which something
can happen. What needs no waiting happens at once: first all that the engine has to say, then the
turn of the request.
-/

namespace Refinery.Rehearsal

class Session (σ : Type) where
  step : σ → Signal → σ × List Deed
  /-- The call in progress. -/
  generation? : σ → Option Generation
  /-- Whether a turn would bring the session on. -/
  ready : σ → Bool
  /-- Whether hints are being shown in turn. -/
  hinting : σ → Bool
  settings : σ → Settings

/-- The engine's side of the call in progress: what is left of it, and what comes next when. -/
structure Live where
  number : Nat
  remaining : Remaining
  next : Option (Rat × Signal) := none

/-- A session under the clock. Deeds are newest first. -/
structure Play (σ : Type) where
  session : σ
  engine : Engine
  now : Rat := 0
  live : Option Live := none
  deadline : Option Rat := none
  nextTick : Option Rat := none
  deeds : List Deed := []

namespace Play

variable {σ : Type} [Session σ]

/-- Whether the reader of the call in progress waits for the engine. -/
def reading (s : σ) : Bool :=
  match Session.generation? s with
  | some g => !g.expired && match g.reader with
    | .opening => true
    | .streaming => true
    | .settling => true
    | _ => false
  | none => false

/-- Finds out what comes next in a call that is waited for. -/
def await (p : Play σ) : Play σ :=
  match p.live with
  | some ⟨number, remaining, none⟩ =>
    { p with live := remaining.next?.map fun (t, x, rest) => ⟨number, rest, some (p.now + t, x)⟩ }
  | _ => p

/-- What an act of the session does to the engine. -/
def perform (p : Play σ) : Act → Play σ
  | .call number prompt options =>
    let (engine, remaining) := p.engine.call prompt options
    let limit := (Session.settings p.session).timeout.toRat?
    { p with engine, live := some ⟨number, remaining, none⟩, deadline := limit.map (p.now + ·) }
  | .stop number =>
    { p with
      engine := { p.engine with stops := p.engine.stops + 1 }
      live := p.live.map fun l =>
        if l.number = number then { l with remaining := l.remaining.stop } else l }
  | _ => p

/-- The moment after an interval that is not empty. -/
def after (p : Play σ) (interval : Real64) : Option Rat :=
  interval.toRat?.bind fun t => if 0 < t then some (p.now + t) else none

/-- Takes note of the session after a step. -/
def settle (p : Play σ) (session : σ) (deeds : List Deed) : Play σ :=
  let wasHinting := Session.hinting p.session
  let p := { p with session, deeds := deeds.reverse ++ p.deeds }
  let p := (deeds.foldl (fun p d => p.perform d.act) p).await
  let p := if (Session.generation? session).isSome then p
    else { p with live := none, deadline := none }
  if !Session.hinting session then { p with nextTick := none }
  else if wasHinting then p
  else { p with nextTick := p.after (Session.settings session).hintInterval }

/-- Gives the session a signal. -/
def give (p : Play σ) (x : Signal) : Play σ :=
  let (session, deeds) := Session.step p.session x
  p.settle session deeds

/-- What the engine has to say at the present moment. -/
def due? (p : Play σ) : Option (Live × Signal) := do
  let l ← p.live
  let (t, x) ← l.next
  guard (t ≤ p.now && reading p.session)
  return (l, x)

def earliest (ms : List (Option Rat)) : Option Rat :=
  ms.foldl (fun a b => match a, b with
    | some x, some y => some (if y < x then y else x)
    | some x, none => some x
    | none, b => b) none

/-- Does what can be done at the present moment, if anything. -/
def now? (p : Play σ) : Option (Play σ) :=
  match p.due? with
  | some (l, x) => some ({ p with live := some { l with next := none } }.give x)
  | none =>
    if Session.ready p.session then some (p.give .resume)
    else if p.deadline.any (· ≤ p.now) then some ({ p with deadline := none }.give .expired)
    else if p.nextTick.any (· ≤ p.now) then
      some ({ p with nextTick := p.after (Session.settings p.session).hintInterval }.give .tick)
    else none

/-- The next moment at which something happens by itself. -/
def nextMoment (p : Play σ) : Option Rat :=
  let spoken := if reading p.session then (p.live.bind (·.next)).map (·.1) else none
  earliest [spoken, p.deadline, p.nextTick]

/-- Plays until `stop` holds, or up to a moment. -/
def play (stop : σ → Bool) (limit : Option Rat) (fuel : Nat) (p : Play σ) : Play σ :=
  match fuel with
  | 0 => p
  | fuel + 1 =>
    if stop p.session then p
    else match p.now? with
      | some p => play stop limit fuel p
      | none =>
        match p.nextMoment, limit with
        | some t, some l => if t ≤ l then play stop limit fuel { p with now := t }
          else { p with now := max p.now l }
        | some t, none => play stop limit fuel { p with now := t }
        | none, some l => { p with now := max p.now l }
        | none, none => p

def maxSteps : Nat := 10000000

/-- Plays on until `stop` holds or nothing more happens. -/
def playUntil (stop : σ → Bool) (p : Play σ) : Play σ := p.play stop none maxSteps

def pass (seconds : Rat) (p : Play σ) : Play σ :=
  p.play (fun _ => false) (some (p.now + seconds)) maxSteps

def time (p : Play σ) : Rat := Number.toPlaces Number.binary64 6 p.now

def events (p : Play σ) (ticket : Nat) : List Event :=
  p.deeds.reverse.filterMap fun d => match d.act with
    | .event e => if d.ticket = ticket then some e else none
    | _ => none

end Play

/-- A ladder on its own. -/
structure Solo where
  settings : Settings
  ladder : Ladder
  scene : Scene

namespace Solo

/-- The solo after a step, and what it did. -/
def settle (s : Solo) (next : Ladder × Scene) : Solo × List Deed :=
  let (l, scene) := next
  (⟨s.settings, l, { scene with acts := [] }⟩, scene.acts.reverse.map (⟨0, ·⟩))

def step (s : Solo) (x : Signal) : Solo × List Deed :=
  s.settle (s.ladder.step s.settings s.scene x)

end Solo

/-- Whether a turn would bring a ladder on. -/
def ladderReady (settings : Settings) (l : Ladder) (s : Scene) : Bool :=
  match l.course with
  | .running g => match g.reader with
    | .entered => true
    | _ => (g.outcome? settings s).isSome
  | .closing _ => true
  | .ended _ => false

def ladderGeneration? (l : Ladder) : Option Generation :=
  match l.course with
  | .running g => some g
  | _ => none

instance : Session Solo where
  step := Solo.step
  generation? s := ladderGeneration? s.ladder
  ready s := ladderReady s.settings s.ladder s.scene
  hinting _ := false
  settings s := s.settings

/-- The ladder that the request on its way is on. -/
def deskLadder? (d : Desk) : Option (Ladder × Scene) :=
  match d.active with
  | some (_, r) => match r.control with
    | .asking _ l => some (l, r.scene)
    | _ => none
  | none => none

instance : Session Desk where
  step := Desk.step
  generation? d := (deskLadder? d).bind fun (l, _) => ladderGeneration? l
  ready d :=
    match d.active with
    | none => false
    | some (_, r) => match r.control with
      | .asking _ l => ladderReady r.settings l r.scene
      | .ended _ => false
      | _ => true
  hinting d := (deskLadder? d).isSome
  settings d := d.settings

end Refinery.Rehearsal
