import Refinery.Schema.Lax
import Refinery.Text.Lower

/-!
Settings. Values given by name go before environment variables, and these before the defaults. A
variable carries a lead before the name of its field and may be written in any case.
-/

namespace Refinery

structure Settings where
  baseUrl : Text := "http://127.0.0.1:8080".toList
  model : Text := []
  apiKey : Text := []
  /-- The limit of one generation in seconds, not of a whole request. -/
  timeout : Real64 := .finite 90
  temperature : Real64 := .ofDecimal false 5 (-2)
  topP : Option Real64 := none
  /-- Texts of more characters are cut into chunks. -/
  chunkSize : Int := 3200
  /-- The number of characters after which a preview is sent. -/
  flushChars : Int := 60
  /-- The number of tokens after which a generation lets others run. -/
  yieldEvery : Int := 15
  hintInterval : Real64 := .finite (3 / 2)
  maxTruncationRetries : Int := 2
  debug : Bool := true

namespace Settings
open Schema

/-- Whether the limit of a generation is over as soon as it begins. -/
def leavesNoTime (s : Settings) : Bool := s.timeout.toRat?.any (· ≤ 0)

/-- Reads a value into one field of the settings. -/
abbrev Fill := Settings → Json → Except FaultKind Settings

def fill {α : Type} (read : Reading α) (set : Settings → α → Settings) : Fill := fun s v =>
  (read v).map (set s)

/-- The fields in order, with how each one is read. -/
def fields : List (String × Fill) := [
  ("inference_base_url",
    fill text fun s v => { s with baseUrl := Text.trimRightChar '/' v }),
  ("inference_model", fill text fun s v => { s with model := v }),
  ("inference_api_key", fill text fun s v => { s with apiKey := v }),
  ("inference_timeout_seconds", fill real fun s v => { s with timeout := v }),
  ("temperature", fill real fun s v => { s with temperature := v }),
  ("top_p", fill (optional real) fun s v => { s with topP := v }),
  ("chunk_size_chars", fill int fun s v => { s with chunkSize := v }),
  ("stream_flush_chars", fill int fun s v => { s with flushChars := v }),
  ("stream_yield_every", fill int fun s v => { s with yieldEvery := v }),
  ("substage_interval_seconds", fill real fun s v => { s with hintInterval := v }),
  ("max_truncation_retries", fill int fun s v => { s with maxTruncationRetries := v }),
  ("debug", fill bool fun s v => { s with debug := v })]

/-- The variable for a field. Of several spellings the last counts. -/
def inEnvironment? (lead : Text) (env : List (Text × Text)) (field : Text) : Option Text :=
  let name := Text.lower lead ++ field
  (env.reverse.find? fun v => Text.lower v.1 == name).map (·.2)

/-- The value that is given for a field. -/
def given? (lead : Text) (env : List (Text × Text)) (named : List (Text × Json)) (field : Text) :
    Option Json :=
  match named.find? (·.1 == field) with
  | some f => some f.2
  | none => (inEnvironment? lead env field).map .str

/-- Fills the fields one after the other, noting every fault. -/
def fillAll (value? : Text → Option Json) (start : Settings) : Settings × List Fault :=
  fields.foldl (fun (s, faults) (name, read) =>
    match value? name.toList with
    | none => (s, faults)
    | some v => match read s v with
      | .ok s => (s, faults)
      | .error kind => (s, faults ++ [.inField kind name.toList])) (start, [])

/-- The settings from named values and the environment. A name that is no field is a fault. -/
def load (lead : Text) (env : List (Text × Text)) (named : List (Text × Json)) :
    Except (List Fault) Settings :=
  let (s, faults) := fillAll (given? lead env named) {}
  let unknown := named.filter fun f => !fields.any fun row => row.1.toList == f.1
  match faults ++ unknown.map fun f => .inField .extraForbidden f.1 with
  | [] => .ok s
  | faults => .error faults

def toJson (s : Settings) : Json :=
  .mkObj [
    ("inference_base_url", .str s.baseUrl), ("inference_model", .str s.model),
    ("inference_api_key", .str s.apiKey), ("inference_timeout_seconds", .real s.timeout),
    ("temperature", .real s.temperature),
    ("top_p", match s.topP with
      | some p => .real p
      | none => .null),
    ("chunk_size_chars", .int s.chunkSize), ("stream_flush_chars", .int s.flushChars),
    ("stream_yield_every", .int s.yieldEvery), ("substage_interval_seconds", .real s.hintInterval),
    ("max_truncation_retries", .int s.maxTruncationRetries), ("debug", .bool s.debug)]

end Settings
end Refinery
