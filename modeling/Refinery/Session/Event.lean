import Refinery.Answer.Outcome
import Refinery.Session.Failure

/-!
Events tell a host what happens to its request. Each request ends with one `done` or `error`; after
`retry_clear` the streamed text so far is void. This module holds the events, their written form,
and the rules of that form for any JSON value.
-/

namespace Refinery

inductive Stage where
  | understanding
  | optimizing
  | refining
  | finalizing
  deriving DecidableEq

def Stage.title : Stage → String
  | understanding => "Understanding Code"
  | optimizing => "Optimizing"
  | refining => "Refining Optimization"
  | finalizing => "Finalizing Output"

/-- The hints that are shown in turn while a model writes. -/
def hints : List String := [
  "Rewriting inefficient loops...",
  "Optimizing memory usage...",
  "Reducing algorithmic complexity...",
  "Applying compiler-like optimizations...",
  "Searching for hidden bottlenecks...",
  "Improving data structure access patterns...",
  "Eliminating redundant computations...",
  "Refactoring for zero-overhead abstractions...",
  "Analyzing branch prediction impact...",
  "Optimizing cache locality...",
  "Reducing time complexity...",
  "Simplifying control flow...",
  "Applying idiomatic patterns...",
  "Validating correctness of transforms...",
  "Checking edge cases...",
  "Minimizing allocations...",
  "Flattening nested iterations...",
  "Inlining hot functions...",
  "Streamlining I/O operations...",
  "Profiling critical paths..."]

/-- What is announced below a stage. -/
inductive Substage where
  | hint (index : Nat)
  | retrying
  | keptChunk
  deriving DecidableEq

def Substage.title : Substage → String
  | hint i => hints.getD i ""
  | retrying => "Retrying with stronger instructions..."
  | keptChunk => "Using original chunk (could not validate output)"

inductive Event where
  | stage (stage : Stage)
  | substage (substage : Substage)
  | chunkProgress (current total : Nat)
  | streamActive
  | streamIdle
  | retryClear
  | chunk (text : Text)
  | done (outcome : Outcome)
  | error (message : Text)

namespace Event

def names : List String := [
  "stage", "substage", "chunk_progress", "stream_active", "stream_idle", "retry_clear", "chunk",
  "done", "error"]

def name : Event → String
  | stage _ => "stage"
  | substage _ => "substage"
  | chunkProgress .. => "chunk_progress"
  | streamActive => "stream_active"
  | streamIdle => "stream_idle"
  | retryClear => "retry_clear"
  | chunk _ => "chunk"
  | done _ => "done"
  | error _ => "error"

/-- What an event carries; null for none. -/
def value : Event → Json
  | stage s => .ofString s.title
  | substage s => .ofString s.title
  | chunkProgress current total => .mkObj [("current", .int current), ("total", .int total)]
  | chunk t => .str t
  | done o => o.toJson
  | error m => .str m
  | _ => .null

/-- The event after which nothing follows. -/
def isTerminal : Event → Bool
  | done _ => true
  | error _ => true
  | _ => false

end Event

/-- An event of any name and value, as it is written. -/
structure Notice where
  name : Text
  value : Json

namespace Notice

def ofEvent (e : Event) : Notice := ⟨e.name.toList, e.value⟩

def isNull : Json → Bool
  | .null => true
  | _ => false

/-- An object with the name and, unless it is null, the value. -/
def toJson (n : Notice) : Json :=
  .mkObj ([("type", .str n.name)] ++ if isNull n.value then [] else [("value", n.value)])

def isTerminal (n : Notice) : Bool := n.name == "done".toList || n.name == "error".toList

def count? : Option Json → Option Int
  | some (.int i) => if 0 ≤ i then some i else none
  | _ => none

def isText : Option Json → Bool
  | some (.str _) => true
  | _ => false

def isBool : Option Json → Bool
  | some (.bool _) => true
  | _ => false

/-- Whether a value is one that events of the given name carry. -/
def carries (name : Text) (value : Json) : Bool :=
  let is (s : String) : Bool := name == s.toList
  if is "stage" || is "substage" || is "chunk" || is "error" then isText (some value)
  else if is "chunk_progress" then
    match count? (value.field? "current".toList), count? (value.field? "total".toList) with
    | some current, some total => current ≤ total
    | _, _ => false
  else if is "done" then
    isText (value.field? "optimized_code".toList) && isBool (value.field? "_parsed".toList) &&
      isBool (value.field? "_no_change".toList)
  else if is "stream_active" || is "stream_idle" || is "retry_clear" then isNull value
  else false

/-- A name that cannot be looked up. -/
inductive Unnameable where
  | compound

/-- Whether a value is a written event. A list or an object for a name is refused. -/
def isValid (data : Json) : Except Unnameable Bool :=
  match data with
  | .obj _ => match data.field? "type".toList with
    | some (.str name) => .ok (carries name ((data.field? "value".toList).getD .null))
    | some (.arr _) => .error .compound
    | some (.obj _) => .error .compound
    | _ => .ok false
  | _ => .ok false

end Notice

def Event.toJson (e : Event) : Json := (Notice.ofEvent e).toJson

end Refinery
