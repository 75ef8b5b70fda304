import Refinery.Answer.Dangling
import Refinery.Prompt.Basic
import Refinery.Session.Generation

/-!
Retrying. Output of blanks only is asked for again with a shorter prompt, up to the last level;
output that looks cut off is asked for again with the directive, so many times. The host is told to
drop what it has seen before each retry.
-/

namespace Refinery

/-- What is asked for, and how often cut-off output is asked for again. -/
structure Errand where
  code : Text
  report : Analysis
  focus : Focus
  insist : Bool := false
  context : Option Text := none
  fast : Bool := false
  maxRetries : Int

def Errand.prompt (e : Errand) (level : Int) : Text :=
  Prompt.forLevel e.code e.report e.focus e.insist level e.context

/-- Where a ladder stands: the level, the retries of cut-off output, and the prompt. -/
structure Rung where
  level : Int
  retries : Int := 0
  prompt : Text

inductive Next where
  | take
  | retry (rung : Rung)
  | giveUp

namespace Errand

def first (e : Errand) (level : Int) : Rung := ⟨level, 0, e.prompt level⟩

def next (e : Errand) (rung : Rung) (output : Text) : Next :=
  if Text.blank output then
    if Prompt.maxLevel ≤ rung.level then .giveUp
    else .retry ⟨rung.level + 1, rung.retries, e.prompt (rung.level + 1)⟩
  else if !e.fast && rung.retries < e.maxRetries && Dangling.looksIncomplete output then
    .retry ⟨rung.level, rung.retries + 1, Prompt.withDirective rung.prompt⟩
  else .take

end Errand

inductive Course where
  | running (g : Generation)
  /-- A call is decided; its reader is being put away. -/
  | closing (result : Except Failure Text)
  | ended (result : Except Failure Text)

/-- A series of calls. Without an errand the first output is taken as it is. -/
structure Ladder where
  errand : Option Errand
  rung : Rung
  options : SamplingOptions
  course : Course

namespace Ladder

def result? (l : Ladder) : Option (Except Failure Text) :=
  match l.course with
  | .ended r => some r
  | _ => none

def finish (l : Ladder) (r : Except Failure Text) : Ladder := { l with course := .ended r }

/-- Enters a call, unless the request was cancelled. -/
def enter (l : Ladder) (s : Scene) : Ladder :=
  if s.cancelled then l.finish (.error Generation.cancelledFailure)
  else { l with course := .running { prompt := l.rung.prompt, options := l.options } }

def start (errand : Option Errand) (rung : Rung) (options : SamplingOptions) (s : Scene) : Ladder :=
  enter ⟨errand, rung, options, .closing (.ok [])⟩ s

def proceed (l : Ladder) (s : Scene) (result : Except Failure Text) : Ladder × Scene :=
  match result, l.errand with
  | .error why, _ => (l.finish (.error why), s)
  | .ok output, none => (l.finish (.ok output), s)
  | .ok output, some errand =>
    match errand.next l.rung output with
    | .take => (l.finish (.ok output), s)
    | .giveUp => (l.finish (.error (.emptyOutput Failure.emptyText)), s)
    | .retry rung =>
      match s.emit .retryClear with
      | (s, some why) => (l.finish (.error why), s)
      | (s, none) => ({ l with rung := rung }.enter s, s)

/-- The turn of a call: it calls the engine, or looks whether it is decided. -/
def turn (settings : Settings) (l : Ladder) (s : Scene) (g : Generation) : Ladder × Scene :=
  match g.reader with
  | .entered =>
    let (g, s) := g.start s
    ({ l with course := .running g }, s)
  | _ => match g.outcome? settings s with
    | none => (l, s)
    | some result => ({ l with course := .closing result }, s.release)

def step (settings : Settings) (l : Ladder) (s : Scene) (x : Signal) : Ladder × Scene :=
  match l.course, x with
  | .running g, .resume => l.turn settings s g
  | .running g, x =>
    let (g, s) := g.signal settings s x
    ({ l with course := .running g }, s)
  | .closing result, .resume => l.proceed s result
  | _, .cancel => (l, s.cancel)
  | _, _ => (l, s)

end Ladder
end Refinery
