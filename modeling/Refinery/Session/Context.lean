/-!
The context of one request: whether it was cancelled, the handle of the generation in progress, and
the number of the hint to show.
-/

namespace Refinery

structure Context (Handle : Type) where
  cancelled : Bool := false
  handle : Option Handle := none
  hint : Nat := 0

namespace Context

variable {Handle : Type}

def attach (c : Context Handle) (h : Handle) : Context Handle := { c with handle := some h }

def detach (c : Context Handle) : Context Handle × Option Handle :=
  ({ c with handle := none }, c.handle)

/-- Marks the request as cancelled; the answer is the handle to be stopped, which stays. -/
def cancel (c : Context Handle) : Context Handle × Option Handle :=
  ({ c with cancelled := true }, c.handle)

/-- The next hint in turn, of so many. -/
def turn (total : Nat) (c : Context Handle) : Context Handle :=
  { c with hint := (c.hint + 1) % total }

end Context
end Refinery
