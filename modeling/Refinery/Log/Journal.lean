import Refinery.Log.Template

/-!
The journal. Every logger writes to the same handlers, one object a line or for a console, and
whatever is logged while a request is bound carries its name.
-/

namespace Refinery.Log

inductive Level where
  | debug
  | info
  | warning
  | error
  | critical
  deriving DecidableEq

namespace Level

def name : Level → String
  | debug => "debug"
  | info => "info"
  | warning => "warning"
  | error => "error"
  | critical => "critical"

def number : Level → Nat
  | debug => 10
  | info => 20
  | warning => 30
  | error => 40
  | critical => 50

def every : List Level := [debug, info, warning, error, critical]

def ofName? (n : Text) : Option Level := every.find? fun l => l.name.toList == n

end Level

/-- Adds the name of the bound request, if it is not empty, over any that is there. -/
def withRequest (request : Text) (fields : List (Text × Json)) : List (Text × Json) :=
  if request.isEmpty then fields else Json.put "request_id".toList (.str request) fields

structure Entry where
  logger : Text
  level : Level
  event : Text
  fields : List (Text × Json) := []

/-- The name of the logger that stands above all others, which has none of its own. -/
def rootName : Text := "root".toList

namespace Entry

/-- Fields that steer how an entry is written and are not part of it. -/
def steering : List Text := ["exc_info".toList, "stack_info".toList]

/-- The fields of an entry as it is written. -/
def toFields (e : Entry) (request : Text) (time : Json) : List (Text × Json) :=
  let logger := if e.logger.isEmpty then rootName else e.logger
  let own := ("event".toList, .str e.event) :: e.fields
  withRequest request ([("logger".toList, .str logger), ("level".toList, .ofString e.level.name),
    ("timestamp".toList, time)].foldl (fun fs f => Json.put f.1 f.2 fs)
      (own.filter fun f => !steering.contains f.1))

end Entry

inductive Rendering where
  | object
  | console
  deriving DecidableEq

inductive Line where
  | object (fields : List (Text × Json))
  /-- A line for a console, whose layout is not fixed. -/
  | console

/-- The handlers with their names, the least level that is written, the bound requests (innermost
first), and the lines so far. -/
structure Journal where
  handlers : List (Text × Rendering) := []
  threshold : Level := .warning
  bound : List Text := []
  lines : List Line := []

namespace Journal

def request (j : Journal) : Text := j.bound.head?.getD []

def bind (j : Journal) (request : Text) : Journal := { j with bound := request :: j.bound }

def unbind (j : Journal) : Journal := { j with bound := j.bound.drop 1 }

/-- Installs a handler in place of those of its name. -/
def configure (j : Journal) (name : Text) (debug : Bool) : Journal :=
  { j with
    handlers := j.handlers.filter (·.1 != name) ++ [(name, if debug then .console else .object)]
    threshold := if debug then .debug else .info }

def handlerCount (j : Journal) (name : Text) : Nat := j.handlers.countP (·.1 == name)

/-- What a handler writes for an entry. On a console its text may take several lines. -/
def render (e : Entry) (request : Text) (time : Json) : Rendering → List Line
  | .object => [.object (e.toFields request time)]
  | .console => (Text.lines e.event).map fun _ => .console

/-- Writes an entry, if its level is not below the least one. -/
def write (j : Journal) (e : Entry) (time : Json) : Journal :=
  if e.level.number < j.threshold.number then j
  else { j with
    lines := j.lines ++ j.handlers.flatMap fun h => render e j.request time h.2 }

/-- Writes an entry whose text is made from a template, unless the template has none. -/
def writeTemplate (j : Journal) (e : Entry) (args : List Json) (time : Json) : Journal :=
  match Template.text? e.event args with
  | some t => j.write { e with event := t } time
  | none => j

end Journal
end Refinery.Log
