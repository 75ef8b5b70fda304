import Refinery.Service.Body
import Refinery.Service.Feed
import Refinery.Service.Route

/-!
The service: a desk behind routes. A request that is handed in is answered by its feed. When a feed
is closed and its request is not settled, the request on its way is cancelled.
-/

namespace Refinery

/-- A desk and the feeds of the requests that were handed in. -/
structure Service where
  desk : Desk
  feeds : List Service.Feed := []

namespace Service

/-- A call of the service. -/
structure Call where
  method : Text
  address : Text
  body : Text := []

inductive Reply where
  | json (status : Nat) (body : Json)
  | invalid (faults : List Schema.Fault)
  /-- The feed of a ticket. -/
  | feed (ticket : Nat)

structure Head where
  status : Nat := 200
  contentType : String := "application/json"
  cacheControl : Option String := none
  accelBuffering : Option String := none

def Reply.head : Reply → Head
  | json status _ => { status }
  | invalid _ => { status := 422 }
  | feed _ => {
    contentType := "application/x-ndjson"
    cacheControl := some "no-cache"
    accelBuffering := some "no" }

def feed? (s : Service) (ticket : Nat) : Option Feed := s.feeds.find? (·.ticket == ticket)

def isClosed (s : Service) (ticket : Nat) : Bool := (s.feed? ticket).any (·.closed)

/-- Takes a step of the desk and queues what it tells. -/
def withDesk (s : Service) (next : Desk × List Deed) : Service × List Deed :=
  (⟨next.1, s.feeds.map (·.deliver next.2)⟩, next.2)

def cancel (s : Service) : Service × List Deed := s.withDesk s.desk.cancel.2

def putAway (s : Service) (ticket : Nat) : Service × List Deed :=
  if s.desk.isSettled ticket then (s, []) else s.cancel

/-- The turn of a feed: it writes its next event. -/
def write (s : Service) (ticket : Nat) : Service × List Deed :=
  let wasClosed := s.isClosed ticket
  let turn (f : Feed) : Feed := if f.ticket = ticket then f.write else f
  let s : Service := { s with feeds := s.feeds.map turn }
  if s.isClosed ticket && !wasClosed then s.putAway ticket else (s, [])

def writeAll (s : Service) : Service × List Deed :=
  (s.feeds.flatMap fun f => f.waiting.map fun _ => f.ticket).foldl
    (fun (s, deeds) ticket =>
      let (s, more) := s.write ticket
      (s, deeds ++ more)) (s, [])

def step (s : Service) (x : Signal) : Service × List Deed := s.withDesk (s.desk.step x)

/-- A host that only listens. -/
def listener : Host := fun _ => .pass

/-- Hands in a request, whose feed is opened. -/
def post (s : Service) (ticket : Nat) (r : Request) : Service × List Deed :=
  let s : Service := { s with feeds := s.feeds ++ [{ ticket := ticket }] }
  s.withDesk (s.desk.submit ticket r listener)

/-- The answer to a body that gives no request. -/
def rejection : BadBody → Reply
  | .invalid faults => .invalid faults
  | .unreadable =>
    .json 400 (.mkObj [("detail", .ofString "There was an error parsing the body")])

/-- Answers a call; a request that it hands in gets the ticket. -/
def answer (s : Service) (ticket : Nat) (c : Call) : Service × List Deed × Reply :=
  match Route.find c.method c.address with
  | .error why => (s, [], .json why.status (.mkObj [("detail", .ofString why.detail)]))
  | .ok .health => (s, [], .json 200 (.mkObj [("status", .ofString "ok")]))
  | .ok .status =>
    (s, [], .json 200 (.mkObj [("busy", .bool s.desk.isBusy),
      ("state", .ofString s.desk.phase.name)]))
  | .ok .cancel =>
    let (t, deeds) := s.cancel
    (t, deeds, .json 200 (.mkObj [("cancelled", .bool s.desk.isBusy)]))
  | .ok .optimize => match Body.request c.body with
    | .error why => (s, [], rejection why)
    | .ok r =>
      let (s, deeds) := s.post ticket r
      (s, deeds, .feed ticket)

end Service
end Refinery
