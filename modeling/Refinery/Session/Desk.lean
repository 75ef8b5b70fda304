import Refinery.Session.Run

/-!
The desk admits one request at a time. A request that arrives while another is on its way is told
so in one event and changes nothing. The desk shows the phase of the latest request.
-/

namespace Refinery

/-- The pipeline as others see it: its phase, and the request on its way under its ticket. -/
structure Desk where
  settings : Settings
  phase : Phase := .idle
  active : Option (Nat × Run) := none
  /-- What finished requests came to, latest first. -/
  results : List (Nat × Option Outcome) := []

/-- What a request under a ticket does. -/
structure Deed where
  ticket : Nat
  act : Act

namespace Desk

def isBusy (d : Desk) : Bool := d.active.isSome

def isSettled (d : Desk) (ticket : Nat) : Bool := d.results.any (·.1 == ticket)

def busyText : Text := "Optimization already in progress.".toList

def phaseAfter (p : Phase) (acts : List Act) : Phase :=
  acts.foldl (fun p a => match a with
    | .phase q => q
    | _ => p) p

/-- Notes what a run has done; a run that is over leaves the desk. -/
def settle (d : Desk) (ticket : Nat) (r : Run) : Desk × List Deed :=
  let (acts, r) := r.takeActs
  let d := { d with phase := phaseAfter d.phase acts }
  let d := if r.isOver then
      { d with active := none, results := (ticket, r.outcome?) :: d.results }
    else { d with active := some (ticket, r) }
  (d, acts.map (⟨ticket, ·⟩))

def step (d : Desk) (x : Signal) : Desk × List Deed :=
  match d.active with
  | none => (d, [])
  | some (ticket, r) => d.settle ticket (r.step x)

def cancel (d : Desk) : Bool × Desk × List Deed := (d.isBusy, d.step .cancel)

/-- Tells a host that the desk is busy. A host may cancel the request on its way even then. -/
def turnAway (d : Desk) (ticket : Nat) (host : Host) : Desk × List Deed :=
  let e := Event.error busyText
  let (d, deeds) := match host [e] with
    | .cancel => d.step .cancel
    | _ => (d, [])
  ({ d with results := (ticket, none) :: d.results }, ⟨ticket, .event e⟩ :: deeds)

/-- A request arrives; its name is logged with what it does. -/
def submit (d : Desk) (ticket : Nat) (request : Request) (host : Host)
    (name : Text := Text.ofNat ticket) : Desk × List Deed :=
  if d.isBusy then d.turnAway ticket host
  else d.settle ticket (Run.begin d.settings name request host)

end Desk
end Refinery
