import Refinery.Json.Printer
import Refinery.Session.Desk

/-!
Feeds. The events of a request are written as lines, one JSON object each, in the order in which
they are told; a feed is closed by the event that ends its request.
-/

namespace Refinery.Service

/-- The lines of one request: the events that are still to be written, and those that were. -/
structure Feed where
  ticket : Nat
  waiting : List Event := []
  written : List Event := []
  closed : Bool := false

namespace Feed

/-- The events that some deeds tell under a ticket. -/
def eventsUnder (ticket : Nat) (deeds : List Deed) : List Event :=
  deeds.filterMap fun d => match d.act with
    | .event e => if d.ticket = ticket then some e else none
    | _ => none

def deliver (deeds : List Deed) (f : Feed) : Feed :=
  { f with waiting := f.waiting ++ eventsUnder f.ticket deeds }

def write (f : Feed) : Feed :=
  match f.closed, f.waiting with
  | false, e :: later =>
    { f with waiting := later, written := f.written ++ [e], closed := e.isTerminal }
  | _, _ => f

def line (e : Event) : Text := e.toJson.print ++ ['\n']

def text (f : Feed) : Text := f.written.flatMap line

/-- The body is the printed events, with a newline behind each. -/
theorem text_eq (f : Feed) : f.text = f.written.flatMap fun e => e.toJson.print ++ ['\n'] := rfl

end Feed
end Refinery.Service
