import Refinery.Inference.Completion
import Refinery.Session.Context
import Refinery.Session.Event
import Refinery.Session.Phase

/-!
The scene of a request: its context, the host that is told its events and may react to them, and
what the request does that others can see.
-/

namespace Refinery

inductive Reaction where
  | pass
  | cancel
  | fail (why : Failure)

/-- A host: its reaction to the newest of the events that it was told, newest first. -/
abbrev Host := List Event → Reaction

/-- A host whose failures nobody minds. -/
def Host.shielded (h : Host) : Host := fun told =>
  match h told with
  | .fail _ => .pass
  | r => r

/-- What others can see of a request. Calls of the engine are numbered. -/
inductive Act where
  | event (e : Event)
  | phase (p : Phase)
  | call (number : Nat) (prompt : Text) (options : SamplingOptions)
  | stop (number : Nat)
  /-- From here on what is logged in the request's name carries this one. -/
  | bind (name : Text)
  /-- The name that was bound before is bound again. -/
  | unbind

/-- A request's scene. `told` and `acts` are newest first. -/
structure Scene where
  host : Host
  context : Context Nat := {}
  /-- Whether a cancellation still reaches the request. -/
  admitted : Bool := true
  told : List Event := []
  calls : Nat := 0
  acts : List Act := []
  /-- How a handle fails that has just been told to stop, by what was done so far. -/
  balks : List Act → Option Failure := fun _ => none

namespace Scene

def act (s : Scene) (a : Act) : Scene := { s with acts := a :: s.acts }

/-- Tells a handle to stop. The answer is its failure. -/
def halt (s : Scene) (n : Nat) : Scene × Option Failure :=
  let s := s.act (.stop n)
  (s, s.balks s.acts)

/-- Tells a handle to stop, if there is one; its failure does not matter. -/
def stop (s : Scene) : Option Nat → Scene
  | some n => (s.halt n).1
  | none => s

def cancel (s : Scene) : Scene :=
  if s.admitted then
    let (context, handle) := s.context.cancel
    { s with context := context }.stop handle
  else s

def cancelled (s : Scene) : Bool := s.context.cancelled

/-- Gives the handle away and tells it to stop. -/
def release (s : Scene) : Scene :=
  let (context, handle) := s.context.detach
  { s with context := context }.stop handle

/-- Tells the host an event. The answer is the host's failure. -/
def emit (s : Scene) (e : Event) : Scene × Option Failure :=
  let s := { s with told := e :: s.told, acts := .event e :: s.acts }
  match s.host s.told with
  | .pass => (s, none)
  | .cancel => (s.cancel, none)
  | .fail why => (s, some why)

/-- Tells a host an event when its failures do not matter. -/
def tell (s : Scene) (e : Event) : Scene := (s.emit e).1

/-- Calls the engine under the next number. -/
def call (s : Scene) (prompt : Text) (options : SamplingOptions) : Scene × Nat :=
  ({ s with calls := s.calls + 1, acts := .call s.calls prompt options :: s.acts }, s.calls)

end Scene
end Refinery
