import Refinery.Inference.Completion
import Refinery.Inference.Stream
import Refinery.Session.Generation

/-!
A transport that answers requests from a list of responses, and the signals that an engine on top
of it gives to its caller.
-/

namespace Refinery.Rehearsal
open Inference Text

structure Response where
  status : Nat := 200
  chunks : List (List Nat) := []
  delay : Rat := 0
  breaks : Option (Nat × Text) := none
  unreachable : Option Text := none

/-- The part of a body that is still to come. -/
structure Body where
  chunks : List (List Nat)
  index : Nat := 0
  delay : Rat
  breaks : Option (Nat × Text)
  utf8 : Utf8 := .start
  /-- The text after the last complete line. -/
  kept : Text := []
  complete : Bool := false

namespace Body

def ofResponse (r : Response) : Body := ⟨r.chunks, 0, r.delay, r.breaks, .start, [], false⟩

/-- What the next piece of a body brings, and the time before it. -/
def advance (b : Body) : Rat × List Delivery × Body :=
  let broken := b.breaks.bind fun (at_, m) => if at_ = b.index then some m else none
  match broken, b.chunks with
  | some m, _ => (0, [.broken m], { b with chunks := [], complete := true })
  | none, [] =>
    let (ls, kept) := takeLines b.kept b.utf8.finish
    let ls := ls ++ (lastLine? kept).toList
    (0, ls.map .line, { b with complete := true })
  | none, c :: cs =>
    let (utf8, piece) := b.utf8.feed c
    let (ls, kept) := if piece.isEmpty then ([], b.kept) else takeLines b.kept piece
    (b.delay, ls.map .line,
      { b with chunks := cs, index := b.index + 1, utf8 := utf8, kept := kept })

/-- Reads a whole body: its octets or the message of the break, and the time that this takes. -/
def readAll (delay : Rat) (breaks : Option (Nat × Text)) (index : Nat) :
    List (List Nat) → Rat × Except Text (List Nat)
  | [] => match breaks with
    | some (at_, m) => if at_ = index then (0, .error m) else (0, .ok [])
    | none => (0, .ok [])
  | c :: cs =>
    let later := readAll delay breaks (index + 1) cs
    let all := (delay + later.1, later.2.map (c ++ ·))
    match breaks with
    | some (at_, m) => if at_ = index then (0, .error m) else all
    | none => all

end Body

/-- The engine's side of a call over a transport. -/
structure Connection where
  stream : Stream := {}
  body : Body
  pending : List Delivery := []

namespace Connection

/-- The next signal of an open stream, and the time before it. -/
def next (fuel : Nat) (c : Connection) : Rat × Signal × Connection :=
  match fuel with
  | 0 => (0, .ended, c)
  | fuel + 1 =>
    match c.stream.pull c.body.complete c.pending with
    | (stream, .fragment f, pending) => (0, .token f, { c with stream, pending })
    | (stream, .ended, pending) => (0, .ended, { c with stream, pending })
    | (stream, .failed why, pending) => (0, .broke why, { c with stream, pending })
    | (stream, .waiting, pending) =>
      let (delay, ds, body) := c.body.advance
      let (later, x, c) := next fuel { stream, body, pending := pending ++ ds }
      (delay + later, x, c)

/-- The next signal; a body has one piece more than it has chunks. -/
def nextSignal (c : Connection) : Rat × Signal × Connection :=
  c.next (c.body.chunks.length + 3)

def stop (c : Connection) : Connection := { c with stream := c.stream.cancel.1 }

end Connection

/-- How a transport answers a request: with a refusal, or with a stream. -/
def answer (r : Response) : Rat × Except Failure Connection :=
  match r.unreachable with
  | some m => (0, .error (Inference.unreachable m))
  | none =>
    if isRefusal r.status then
      match Body.readAll r.delay r.breaks 0 r.chunks with
      | (t, .ok octets) => (t, .error (refused r.status (Utf8.decode octets)))
      | (t, .error m) => (t, .error (.other .read m))
    else (0, .ok { body := .ofResponse r })

end Refinery.Rehearsal
