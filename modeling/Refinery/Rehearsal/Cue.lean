import Refinery.Json.Printer
import Refinery.Session.Scene

/-!
A host that reacts once: to the event of a given name, and of a given value if one is given, when
it is told for the n-th time.
-/

namespace Refinery.Rehearsal

/-- When a host reacts, and how. -/
structure Cue where
  name : Text
  value : Option Json := none
  nth : Nat := 1
  reaction : Reaction

namespace Cue

def isMet (c : Cue) (e : Event) : Bool :=
  e.name.toList == c.name && c.value.all fun v => e.value.print == v.print

/-- The host that follows a cue, or one that never reacts. -/
def host : Option Cue → Host
  | none => fun _ => .pass
  | some c => fun told =>
    match told with
    | e :: _ => if c.isMet e && (told.filter c.isMet).length = c.nth then c.reaction else .pass
    | [] => .pass

end Cue
end Refinery.Rehearsal
