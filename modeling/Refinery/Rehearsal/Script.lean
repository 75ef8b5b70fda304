import Refinery.Session.Generation

/-!
A scripted engine: what each call of it does and when. A rehearsal plays scripts against a clock of
its own, so that every course of events can be tried without an engine.
-/

namespace Refinery.Rehearsal
open Text

/-- The text that a scripted call answers with. -/
inductive Answer where
  | tokens (ts : List Text)
  | text (t : Text)
  /-- The code of the prompt in a fenced block, after some replacements and with so many blanks
  taken from the front of each line. -/
  | echo (tag : Text) (replacements : List (Text × Text)) (dedent : Nat)

/-- What one call does. Delays are in seconds. -/
structure Script where
  startDelay : Rat := 0
  refuses : Option Failure := none
  answer : Answer := .text []
  tokenSize : Nat := 8
  breaks : Option (Nat × Failure) := none
  delay : Rat := 0
  hangs : Bool := false
  resultHangs : Bool := false
  resultFails : Option Failure := none
  /-- How its handle fails whenever it is told to stop. -/
  stopFails : Option Failure := none

namespace Script

def cutEvery (size : Nat) (t : Text) : List Text :=
  if t.isEmpty then []
  else if size = 0 then [t]
  else (List.range ((t.length + size - 1) / size)).map fun i => (t.drop (i * size)).take size

/-- The end of a prompt whose code an echo gives back. -/
def promptEnd : Text := "\n```\nOutput:".toList

/-- The line without blanks at the front, at most so many. -/
def dedentLine (n : Nat) (line : Text) : Text :=
  line.drop (min n (line.takeWhile (· == ' ')).length)

/-- The code of a prompt: the text after its last fence with the tag. -/
def promptCode? (tag prompt : Text) : Option Text :=
  if endsWith promptEnd prompt then
    let front := prompt.take (prompt.length - promptEnd.length)
    (cutLast? ("```".toList ++ tag ++ ['\n']) front).map (·.2)
  else none

/-- What an echo answers. -/
def echoOf (tag : Text) (replacements : List (Text × Text)) (dedent : Nat) (prompt : Text) : Text :=
  match promptCode? tag prompt with
  | none => []
  | some code =>
    let code := replacements.foldl (fun c (old, new) => replaceAll old new c) code
    let code := if dedent = 0 then code else unlines ((lines code).map (dedentLine dedent))
    "```".toList ++ tag ++ ['\n'] ++ code ++ "\n```".toList

/-- The tokens that a call yields for a prompt. -/
def tokensFor (s : Script) (prompt : Text) : List Text :=
  match s.answer with
  | .tokens ts => ts
  | .text t => cutEvery s.tokenSize t
  | .echo tag replacements dedent => cutEvery s.tokenSize (echoOf tag replacements dedent prompt)

/-- How long a hanging stream stays silent. -/
def forever : Rat := 1000000

/-- The signals of a stream from its token `index` on, each with the time before it. -/
def stream (s : Script) (index : Nat) (ts : List Text) : List (Rat × Signal) :=
  match s.breaks with
  | some (at_, why) => if at_ = index then [(0, .broke why)] else rest
  | none => rest
where
  rest : List (Rat × Signal) :=
    match ts with
    | t :: ts => (s.delay, .token (.text t)) :: stream s (index + 1) ts
    | [] =>
      (if s.hangs then forever else 0, .ended) ::
        if s.resultHangs then []
        else match s.resultFails with
          | some why => [(0, .unsettled why)]
          | none => [(0, .settled)]

/-- The signals of a call, each with the time before it. -/
def signals (s : Script) (prompt : Text) : List (Rat × Signal) :=
  match s.refuses with
  | some why => [(s.startDelay, .refused why)]
  | none => (s.startDelay, .opened) :: stream s 0 (s.tokensFor prompt)

end Script
end Refinery.Rehearsal
