import Refinery.Text.Basic

/-!
The routes of the service: a path and the one method that it answers to.
-/

namespace Refinery.Service

/-- What the service can be asked for. -/
inductive Route where
  | health
  | optimize
  | cancel
  | status
  deriving DecidableEq

/-- Why a call reaches no route. -/
inductive Unrouted where
  | notFound
  | notAllowed
  deriving DecidableEq

namespace Unrouted

def status : Unrouted → Nat
  | notFound => 404
  | notAllowed => 405

def detail : Unrouted → String
  | notFound => "Not Found"
  | notAllowed => "Method Not Allowed"

end Unrouted

namespace Route

def every : List Route := [health, optimize, cancel, status]

def path : Route → String
  | health => "/health"
  | optimize => "/optimize"
  | cancel => "/optimize/cancel"
  | status => "/optimize/status"

def method : Route → String
  | health => "GET"
  | optimize => "POST"
  | cancel => "POST"
  | status => "GET"

def pathOf (address : Text) : Text := address.takeWhile fun c => c != '?' && c != '#'

/-- The route of a call. Methods are in capitals. -/
def find (method address : Text) : Except Unrouted Route :=
  match every.find? fun r => r.path.toList == pathOf address with
  | none => .error .notFound
  | some r => if r.method.toList == method then .ok r else .error .notAllowed

end Route
end Refinery.Service
