import Refinery.Inference.Completion

/-!
The engine behind a service, over the lifetime of the service.
-/

namespace Refinery.Service

/-- An engine and whether the service has built it itself. -/
structure Backend where
  endpoint : Inference.Endpoint
  owned : Bool
  closed : Bool := false

namespace Backend

def built (s : Settings) : Backend := { endpoint := .ofSettings s, owned := true }

def lent (e : Inference.Endpoint) : Backend := { endpoint := e, owned := false }

/-- The service shuts down: it closes the engine that it built, and leaves another open. -/
def shutDown (b : Backend) : Backend := { b with closed := b.closed || b.owned }

end Backend
end Refinery.Service
