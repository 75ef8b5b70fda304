import Refinery.Session.Failure
import Refinery.Json.Basic
import Refinery.Settings

/-!
Asking a completion server for a stream: the request that is sent, and how a server that cannot be
reached or refuses is reported.
-/

namespace Refinery

structure SamplingOptions where
  maxTokens : Int
  temperature : Real64
  topP : Option Real64 := none

namespace Inference

/-- A server, and what it is asked with. -/
structure Endpoint where
  baseUrl : Text
  model : Text := []
  apiKey : Text := []

namespace Endpoint

/-- An endpoint; slashes at the end of its address do not count. -/
def make (baseUrl model apiKey : Text) : Endpoint :=
  ⟨Text.trimRightChar '/' baseUrl, model, apiKey⟩

def ofSettings (s : Settings) : Endpoint := make s.baseUrl s.model s.apiKey

def url (e : Endpoint) : Text := e.baseUrl ++ "/v1/completions".toList

def authorization? (e : Endpoint) : Option Text :=
  if e.apiKey.isEmpty then none else some ("Bearer ".toList ++ e.apiKey)

def body (e : Endpoint) (prompt : Text) (options : SamplingOptions) : Json :=
  .mkObj ([("prompt", .str prompt), ("max_tokens", .int options.maxTokens),
    ("temperature", .real options.temperature), ("stream", .bool true)] ++
    (match options.topP with
      | some p => [("top_p", .real p)]
      | none => []) ++
    if e.model.isEmpty then [] else [("model", .str e.model)])

/-- What goes over the wire for one generation. -/
structure Call where
  method : String := "POST"
  url : Text
  accept : String := "text/event-stream"
  authorization : Option Text
  body : Json

def call (e : Endpoint) (prompt : Text) (options : SamplingOptions) : Call where
  url := e.url
  authorization := e.authorization?
  body := e.body prompt options

end Endpoint

/-- The most of a refusing server's answer that is reported. -/
def reportedChars : Nat := 200

def unreachable (message : Text) : Failure :=
  .inference ("Inference request failed: ".toList ++ message) (some .connect)

def refused (status : Nat) (body : Text) : Failure :=
  .inference ("Inference server returned HTTP ".toList ++ Text.ofNat status ++ ": ".toList ++
    body.take reportedChars) none

def isRefusal (status : Nat) : Bool := 400 ≤ status

end Inference
end Refinery
