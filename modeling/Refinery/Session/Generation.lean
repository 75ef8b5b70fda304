import Refinery.Inference.Fragment
import Refinery.Session.Scene

/-!
One call of the engine. A reader takes the handle, relays the tokens as previews and waits for the
result; meanwhile the request waits for the reader, for its own cancellation, or for the time limit.
Cancellation goes before everything that the reader has to report, and this before the limit.
-/

namespace Refinery
open Inference

/-- What reaches a request from outside. -/
inductive Signal where
  /-- The request's turn to go on. -/
  | resume
  /-- The engine has answered with a handle. -/
  | opened
  | refused (why : Failure)
  | token (f : Fragment)
  | ended
  | broke (why : Failure)
  | settled
  | unsettled (why : Failure)
  | expired
  | tick
  | cancel

/-- How far the reader of a call is. -/
inductive Reader where
  /-- The engine has not been called yet. -/
  | entered
  | opening
  | streaming
  | settling
  | stopped (failure : Option Failure)

/-- One call of the engine. -/
structure Generation where
  prompt : Text
  options : SamplingOptions
  number : Nat := 0
  reader : Reader := .entered
  expired : Bool := false
  /-- How often the reader has let others run. -/
  pauses : Nat := 0
  output : Text := []
  count : Nat := 0
  preview : List Fragment := []
  previewSize : Nat := 0

namespace Generation

def finish (g : Generation) (failure : Option Failure) : Generation :=
  { g with reader := .stopped failure }

def flush (g : Generation) (s : Scene) : Generation × Scene :=
  match Fragment.join 0 g.preview with
  | .error why => (g.finish (some why), s)
  | .ok t =>
    match s.emit (.chunk t) with
    | (s, some why) => (g.finish (some why), s)
    | (s, none) => ({ g with preview := [], previewSize := 0 }, s)

def isOver (g : Generation) : Bool :=
  match g.reader with
  | .stopped _ => true
  | _ => false

/-- After every so many tokens the reader lets others run. A time limit that leaves no time is over
by the second such pause. -/
def rest (settings : Settings) (g : Generation) : Generation :=
  if g.isOver then g
  else if settings.yieldEvery = 0 then
    g.finish (some (.other .zeroDivision "integer modulo by zero".toList))
  else if settings.yieldEvery ∣ (g.count : Int) then
    let pauses := g.pauses + 1
    { g with pauses, expired := g.expired || (2 ≤ pauses && settings.leavesNoTime) }
  else g

/-- Puts a token on the preview, which is sent when it is long enough. -/
def extend (flushChars : Int) (g : Generation) (s : Scene) (f : Fragment) : Generation × Scene :=
  match f.size with
  | .error why => (g.finish (some why), s)
  | .ok n =>
    let g := { g with preview := g.preview ++ [f], previewSize := g.previewSize + n }
    if flushChars ≤ g.previewSize then g.flush s else (g, s)

/-- Takes a token. The first one is announced. -/
def token (settings : Settings) (g : Generation) (s : Scene) (f : Fragment) :
    Generation × Scene :=
  if s.cancelled then (g.finish none, s)
  else
    let first := g.count = 0
    let g := { g with output := g.output ++ f.asText, count := g.count + 1 }
    match if first then s.emit .streamActive else (s, none) with
    | (s, some why) => (g.finish (some why), s)
    | (s, none) =>
      let (g, s) := g.extend settings.flushChars s f
      (g.rest settings, s)

/-- The stream is at its end: what is left of the preview is sent. -/
def ended (g : Generation) (s : Scene) : Generation × Scene :=
  let (g, s) := if g.preview.isEmpty then (g, s) else g.flush s
  if g.isOver then (g, s) else ({ g with reader := .settling }, s)

/-- Takes a signal other than the turn to go on. -/
def signal (settings : Settings) (g : Generation) (s : Scene) (x : Signal) : Generation × Scene :=
  match g.reader, x with
  | .opening, .opened =>
    let s := { s with context := s.context.attach g.number }
    if s.cancelled then (g.finish none, s) else ({ g with reader := .streaming }, s)
  | .opening, .refused why => (g.finish (some why), s)
  | .streaming, .token f => g.token settings s f
  | .streaming, .ended => g.ended s
  | .streaming, .broke why => (g.finish (some why), s)
  | .settling, .settled => (g.finish none, s)
  | .settling, .unsettled why => (g.finish (some why), s)
  | _, .expired => ({ g with expired := true }, s)
  | _, .cancel => (g, s.cancel)
  | _, _ => (g, s)

/-- The reader's first turn: it calls the engine. -/
def start (g : Generation) (s : Scene) : Generation × Scene :=
  let (s, number) := s.call g.prompt g.options
  ({ g with reader := .opening, number := number }, s)

def cancelledFailure : Failure := .cancelled Failure.cancelledText

/-- What the call comes to, once it is decided. -/
def outcome? (settings : Settings) (g : Generation) (s : Scene) : Option (Except Failure Text) :=
  match g.reader with
  | .entered => none
  | .stopped failure =>
    some (if s.cancelled then .error cancelledFailure
      else match failure with
        | some why => .error why
        | none => .ok g.output)
  | _ =>
    if s.cancelled then some (.error cancelledFailure)
    else if g.expired then some (.error (.timedOut settings.timeout))
    else none

end Generation
end Refinery
