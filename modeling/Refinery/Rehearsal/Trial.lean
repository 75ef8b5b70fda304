import Refinery.Rehearsal.Clock
import Refinery.Rehearsal.Cue

/-!
Trials: a ladder on its own, a desk that gets requests and cancellations step by step, and the
context of a request by itself.
-/

namespace Refinery.Rehearsal

/-- A ladder to be tried: what is asked for and when it is cancelled. -/
structure LadderTrial where
  settings : Settings
  source : Source
  cue : Option Cue := none
  errand : Option Errand := none
  level : Int := 0
  /-- The prompt where there is no errand. -/
  prompt : Text := []
  options : SamplingOptions
  cancelledBefore : Bool := false
  cancelAt : Option Rat := none

structure LadderReport where
  result : Except Failure Text
  events : List Event
  released : Bool
  cancelled : Bool
  time : Rat
  engine : Engine

namespace LadderTrial

def isOver (s : Solo) : Bool := s.ladder.result?.isSome

/-- The ladder before its first step. -/
def start (t : LadderTrial) : Solo :=
  let scene : Scene := {
    host := Cue.host t.cue
    context := { cancelled := t.cancelledBefore }
    balks := t.source.balks }
  let rung := match t.errand with
    | some e => e.first t.level
    | none => ⟨t.level, 0, t.prompt⟩
  ⟨t.settings, Ladder.start t.errand rung t.options scene, scene⟩

def run (t : LadderTrial) : LadderReport :=
  let p : Play Solo := { session := t.start, engine := { source := t.source } }
  let p := match t.cancelAt with
    | none => p
    | some moment =>
      let p := p.play isOver (some moment) Play.maxSteps
      if isOver p.session then p else p.give .cancel
  let p := p.playUntil isOver
  { result := p.session.ladder.result?.getD (.ok [])
    events := p.events 0
    released := p.session.scene.context.handle.isNone
    cancelled := p.session.scene.cancelled
    time := p.time
    engine := p.engine }

end LadderTrial

structure Submission where
  request : Request
  background : Bool := false
  cue : Option Cue := none

namespace Submission

/-- Hands in a request under a ticket. One in the background is left when it has to wait; another is
waited for until it is settled. -/
def handIn (x : Submission) (ticket : Nat) (p : Play Desk) : Play Desk :=
  let (d, deeds) := p.session.submit ticket x.request (Cue.host x.cue)
  let p := p.settle d deeds
  if x.background then p.pass 0 else p.playUntil (·.isSettled ticket)

end Submission

/-- What is done with a desk, one after the other. -/
inductive Stroke where
  | submit (payload : Except (List Schema.Fault) Submission)
  | sleep (seconds : Rat)
  | cancel
  | status
  | wait

/-- The desk right after a stroke, and whether a cancellation reached a request. -/
structure StrokeReport where
  phase : Phase
  busy : Bool
  cancelled : Option Bool := none

namespace Stroke

def waitAll (p : Play Desk) : Play Desk := p.playUntil fun d => !d.isBusy

/-- Plays one stroke; `ticket` is its number. -/
def play (ticket : Nat) (p : Play Desk) (x : Stroke) : Play Desk × Option Bool :=
  match x with
  | submit (.ok s) => (s.handIn ticket p, none)
  | submit (.error _) => (p, none)
  | sleep t => (if 0 < t then p.pass t else p, none)
  | cancel =>
    let (reached, d, deeds) := p.session.cancel
    (p.settle d deeds, some reached)
  | status => (p, none)
  | wait => (waitAll p, none)

/-- Plays strokes from number `ticket` on, and then waits. -/
def playAll (ticket : Nat) (p : Play Desk) : List Stroke → Play Desk × List StrokeReport
  | [] => (waitAll p, [])
  | x :: xs =>
    let (p, cancelled) := play ticket p x
    let report : StrokeReport := ⟨p.session.phase, p.session.isBusy, cancelled⟩
    let (p, reports) := playAll (ticket + 1) p xs
    (p, report :: reports)

def run (settings : Settings) (source : Source) (xs : List Stroke) :
    Play Desk × List StrokeReport :=
  playAll 0 { session := { settings }, engine := { source } } xs

end Stroke

/-- What is done with a context by itself. -/
inductive ContextStroke where
  | attach (name : Text)
  | detach
  | cancel
  | check

/-- What a stroke on a context gave, and the context after it. -/
structure ContextReport where
  detached : Option Text := none
  refused : Option Failure := none
  context : Context Text
  /-- The handles that were told to stop, first to last. -/
  stopped : List Text

namespace ContextStroke

def play (c : Context Text) (stopped : List Text) : ContextStroke → ContextReport
  | attach name => { context := c.attach name, stopped }
  | detach =>
    let (c, h) := c.detach
    { detached := h, context := c, stopped }
  | cancel =>
    let (c, h) := c.cancel
    { context := c, stopped := stopped ++ h.toList }
  | check =>
    { refused := if c.cancelled then some Generation.cancelledFailure else none
      context := c
      stopped }

def playAll (c : Context Text) (stopped : List Text) : List ContextStroke → List ContextReport
  | [] => []
  | x :: xs =>
    let r := play c stopped x
    r :: playAll r.context r.stopped xs

end ContextStroke

/-- What reading one stream to its end showed. -/
structure StreamReport where
  fragments : List Inference.Fragment := []
  failure : Option Failure := none
  /-- The result, where there was a handle. -/
  result : Option (Option Text) := none
  stopFailure : Option Failure := none

namespace StreamTrial

/-- Reads on; the stream is cancelled when it has yielded `cancelAfter` fragments. -/
def readOn (fuel : Nat) (c : Connection) (cancelAfter : Option Nat)
    (read : List Inference.Fragment) : Connection × List Inference.Fragment × Option Failure :=
  match fuel with
  | 0 => (c, read, none)
  | fuel + 1 =>
    match c.nextSignal with
    | (_, .token f, c) =>
      let read := read ++ [f]
      if cancelAfter == some read.length then
        match c.stream.cancel with
        | (stream, some why) => ({ c with stream }, read, some why)
        | (stream, none) => readOn fuel { c with stream } cancelAfter read
      else readOn fuel c cancelAfter read
    | (_, .broke why, c) => (c, read, some why)
    | (_, _, c) => (c, read, none)

/-- Opens a stream and reads it to its end. -/
def run (r : Response) (cancelAfter : Option Nat) : StreamReport :=
  match answer r with
  | (_, .error why) => { failure := some why }
  | (_, .ok c) =>
    let c := if cancelAfter == some 0 then c.stop else c
    let size := r.chunks.flatten.length
    let (c, read, failure) := readOn (size + 2) c cancelAfter []
    { fragments := read
      failure
      result := some c.stream.result
      stopFailure := c.stream.cancel.2 }

end StreamTrial
end Refinery.Rehearsal
