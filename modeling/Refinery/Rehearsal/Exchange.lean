import Refinery.Rehearsal.Clock
import Refinery.Service.Basic

/-!
Exchanges: calls of a service one after the other, each left or waited for. Feeds write as soon as
they are told something.
-/

namespace Refinery.Rehearsal

/-- A step of a service and all that its feeds then write. -/
def withFeeds (next : Service × List Deed) : Service × List Deed :=
  let (s, more) := next.1.writeAll
  (s, next.2 ++ more)

instance : Session Service where
  step s x := withFeeds (s.step x)
  generation? s := Session.generation? s.desk
  ready s := Session.ready s.desk
  hinting s := Session.hinting s.desk
  settings s := s.desk.settings

/-- What is done with a service. -/
inductive Exchange where
  | call (c : Service.Call) (background : Bool)
  | sleep (seconds : Rat)

namespace Exchange

/-- Plays one exchange; `ticket` is its number. A call in the background is left when it has to
wait; another is waited for until its feed is closed. -/
def play (ticket : Nat) (p : Play Service) (x : Exchange) : Play Service × Option Service.Reply :=
  match x with
  | sleep t => (if 0 < t then p.pass t else p, none)
  | call c background =>
    let (s, deeds, reply) := p.session.answer ticket c
    let (s, deeds) := withFeeds (s, deeds)
    let p := p.settle s deeds
    match reply with
    | .feed _ => (if background then p.pass 0 else p.playUntil (·.isClosed ticket), some reply)
    | _ => (p, some reply)

/-- Plays exchanges from number `ticket` on, and then waits for the request on its way. -/
def playAll (ticket : Nat) (p : Play Service) :
    List Exchange → Play Service × List (Option Service.Reply)
  | [] => (p.playUntil fun s => !s.desk.isBusy, [])
  | x :: xs =>
    let (p, reply) := play ticket p x
    let (p, replies) := playAll (ticket + 1) p xs
    (p, reply :: replies)

/-- Plays exchanges with a fresh service. -/
def run (settings : Settings) (source : Source) (xs : List Exchange) :
    Play Service × List (Option Service.Reply) :=
  playAll 0 { session := { desk := { settings } }, engine := { source } } xs

end Exchange
end Refinery.Rehearsal
