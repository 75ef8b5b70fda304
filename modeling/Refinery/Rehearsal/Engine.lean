import Refinery.Prompt.Basic
import Refinery.Rehearsal.Script
import Refinery.Rehearsal.Wire

/-!
The engines of a rehearsal, one that follows scripts and one over a transport, and what they note
about the calls they get.
-/

namespace Refinery.Rehearsal
open Inference

/-- Where the answers of the calls come from. -/
inductive Source where
  | scripts (later : List Script)
  | wire (endpoint : Endpoint) (later : List Response)

/-- How the handles of scripted calls fail when they are told to stop. -/
def Source.balks : Source → List Act → Option Failure
  | scripts xs, .stop n :: _ => xs[n]?.bind (·.stopFails)
  | _, _ => none

/-- A call as an engine notes it. -/
structure Noted where
  prompt : Text
  options : SamplingOptions

/-- An engine: its answers, the calls so far (newest first), and how often a handle was told to
stop. -/
structure Engine where
  source : Source
  noted : List Noted := []
  stops : Nat := 0

/-- What is left of a call. -/
inductive Remaining where
  | signals (xs : List (Rat × Signal))
  | opening (delay : Rat) (reply : Except Failure Connection)
  | connection (c : Connection)
  /-- The stream is at its end and the result resolved. -/
  | resolved

namespace Remaining

/-- The next signal of a call, and the time before it. -/
def next? : Remaining → Option (Rat × Signal × Remaining)
  | signals [] => none
  | signals ((t, x) :: xs) => some (t, x, signals xs)
  | opening t (.error why) => some (t, .refused why, signals [])
  | opening t (.ok c) => some (t, .opened, connection c)
  | connection c =>
    match c.nextSignal with
    | (t, .ended, _) => some (t, .ended, resolved)
    | (t, x, c) => some (t, x, connection c)
  | resolved => some (0, .settled, signals [])

/-- A handle is told to stop. -/
def stop : Remaining → Remaining
  | connection c => connection c.stop
  | r => r

end Remaining

namespace Engine

/-- Answers a call. Calls past the last answer get an empty text. -/
def call (e : Engine) (prompt : Text) (options : SamplingOptions) : Engine × Remaining :=
  let e := { e with noted := ⟨prompt, options⟩ :: e.noted }
  match e.source with
  | .scripts [] => (e, .signals (Script.signals {} prompt))
  | .scripts (s :: later) => ({ e with source := .scripts later }, .signals (s.signals prompt))
  | .wire _ [] => (e, let (t, r) := answer {}; .opening t r)
  | .wire endpoint (r :: later) =>
    ({ e with source := .wire endpoint later }, let (t, r) := answer r; .opening t r)

def calls (e : Engine) : List Noted := e.noted.reverse

/-- A prompt as it is shown: a fixed mark stands for the system text in front. -/
def shown (prompt : Text) : Text :=
  match Text.after? Prompt.systemText prompt with
  | some rest => "<SYSTEM>".toList ++ rest
  | none => prompt

end Engine
end Refinery.Rehearsal
