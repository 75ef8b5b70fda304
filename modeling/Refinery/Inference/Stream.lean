import Refinery.Inference.Fragment
import Refinery.Text.Utf8

/-!
A generation that arrives as lines over a transport. The stream yields the fragments of the lines
up to the mark of the end; its result is resolved once, when it ends, breaks or is first cancelled,
to what was yielded by then.
-/

namespace Refinery.Inference
open Text

def isLineEnd (c : Char) : Bool :=
  ['\n', '\r', '\x0b', '\x0c', '\x1c', '\x1d', '\x1e', '\x85', '\u2028', '\u2029'].contains c

/-- The lines that are complete, and the text after the last of them. A carriage return and a
newline end a line together. -/
def splitEnded : Text → List Text × Text
  | [] => ([], [])
  | '\r' :: '\n' :: t =>
    let (ls, rest) := splitEnded t
    ([] :: ls, rest)
  | c :: t =>
    let (ls, rest) := splitEnded t
    if isLineEnd c then ([] :: ls, rest)
    else match ls with
      | [] => ([], c :: rest)
      | l :: ls => ((c :: l) :: ls, rest)

/-- The lines that a piece of text completes, and what is kept for the next one. A carriage return
at the end waits for what follows it. -/
def takeLines (kept piece : Text) : List Text × Text :=
  let t := kept ++ piece
  if t.getLast? == some '\r' then
    let (ls, rest) := splitEnded t.dropLast
    (ls, rest ++ ['\r'])
  else splitEnded t

def lastLine? (kept : Text) : Option Text :=
  match kept with
  | [] => none
  | t => some (if t.getLast? == some '\r' then t.dropLast else t)

inductive Delivery where
  | line (l : Text)
  | broken (message : Text)

/-- What asking a stream for its next fragment leads to. -/
inductive Pull where
  | fragment (f : Fragment)
  | ended
  | failed (why : Failure)
  | waiting

/-- A stream: what it has yielded, whether it was cancelled, whether it is closed, and its result. -/
structure Stream where
  yielded : List Fragment := []
  cancelled : Bool := false
  closed : Bool := false
  result : Option Text := none

namespace Stream

def resolve (s : Stream) : Except Failure Stream :=
  match s.result with
  | some _ => .ok s
  | none => (Fragment.join 0 s.yielded).map fun t => { s with result := some t }

/-- The stream comes to its end in the given way. -/
def close (s : Stream) (how : Pull) : Stream × Pull :=
  let s := { s with closed := true }
  match s.resolve with
  | .ok s => (s, how)
  | .error why => (s, .failed why)

def interrupted (message : Text) : Failure :=
  .inference ("Inference stream interrupted: ".toList ++ message) (some .read)

/-- Goes through what was delivered up to the next fragment, in a stream that is not closed;
`complete` says that nothing more will be delivered. The rest of the deliveries is handed back. -/
def advance (s : Stream) (complete : Bool) : List Delivery → Stream × Pull × List Delivery
  | [] =>
    if complete then
      let (s, p) := s.close .ended
      (s, p, [])
    else (s, .waiting, [])
  | .broken m :: ds =>
    let (s, p) := s.close (.failed (interrupted m))
    (s, p, ds)
  | .line l :: ds =>
    if s.cancelled then
      let (s, p) := s.close .ended
      (s, p, ds)
    else match Line.read l with
      | .error why =>
        let (s, p) := s.close (.failed why)
        (s, p, ds)
      | .ok .endMark =>
        let (s, p) := s.close .ended
        (s, p, ds)
      | .ok .nothing => advance s complete ds
      | .ok (.fragment f) => ({ s with yielded := s.yielded ++ [f] }, .fragment f, ds)

/-- Asks for the next fragment. -/
def pull (s : Stream) (complete : Bool) (ds : List Delivery) : Stream × Pull × List Delivery :=
  if s.closed then (s, .ended, ds) else s.advance complete ds

/-- Cancels the stream; only the first time does anything. -/
def cancel (s : Stream) : Stream × Option Failure :=
  if s.cancelled then (s, none)
  else
    let s := { s with cancelled := true }
    match s.resolve with
    | .ok s => (s, none)
    | .error why => (s, some why)

end Stream
end Refinery.Inference
