import Refinery.Request.Focus
import Refinery.Schema.Lax

/-!
Requests: a text, the language it is in, what to improve, and whether to be quick. A payload is
read field by field, and every field that does not fit is reported.
-/

namespace Refinery

/-- What is asked for. The text is not blank. -/
structure Request where
  code : Text
  language : Text := "auto".toList
  focus : Focus := .performance
  fast : Bool := false
  code_filled : Text.blank code = false

namespace Request
open Schema

/-- A text that is not blank. -/
abbrev Filled := { t : Text // Text.blank t = false }

def codeText : Reading Filled
  | .str s => match h : Text.blank s with
    | true => .error .valueError
    | false => .ok ⟨s, h⟩
  | _ => .error .stringType

def focusName : Reading Focus
  | .str s => match Focus.ofName? s with
    | some f => .ok f
    | none => .error .literalError
  | _ => .error .literalError

/-- The key that sets the quick mode: its own name only where the short one is absent. -/
def fastKey (payload : Json) : Text :=
  if (payload.field? "fastMode".toList).isNone && (payload.field? "fast_mode".toList).isSome then
    "fast_mode".toList
  else "fastMode".toList

/-- Reads a field that may be absent. -/
def field {α : Type} (payload : Json) (name : Text) (read : Reading α) (default : α) :
    Except Fault α :=
  match payload.field? name with
  | none => .ok default
  | some v => (read v).mapError fun kind => .inField kind name

/-- Reads the text, which may not be absent. -/
def codeField (payload : Json) : Except Fault Filled :=
  match payload.field? "code".toList with
  | none => .error (.inField .missing "code".toList)
  | some v => (codeText v).mapError fun kind => .inField kind "code".toList

/-- The fault of a reading that failed. -/
def faultOf {α : Type} : Except Fault α → List Fault
  | .ok _ => []
  | .error f => [f]

/-- Reads a payload, or reports the faults of all fields in order. -/
def ofJson (payload : Json) : Except (List Fault) Request :=
  match payload with
  | .obj _ =>
    let code := codeField payload
    let language := field payload "language".toList text "auto".toList
    let focus := field payload "focus".toList focusName .performance
    let fast := field payload (fastKey payload) bool false
    match code, language, focus, fast with
    | .ok ⟨code, filled⟩, .ok language, .ok focus, .ok fast =>
      .ok ⟨code, language, focus, fast, filled⟩
    | _, _, _, _ => .error (faultOf code ++ faultOf language ++ faultOf focus ++ faultOf fast)
  | _ => .error [⟨.modelType, []⟩]

/-- Writes a request; `fastName` is the key of the quick mode. -/
def toJson (fastName : String) (r : Request) : Json :=
  .mkObj [("code", .str r.code), ("language", .str r.language), ("focus", .ofString r.focus.name),
    (fastName, .bool r.fast)]

/-- The rows of budgets: most lines, usual budget, quick budget. -/
def budgets : List (Nat × Nat × Nat) := [(15, 300, 150), (40, 600, 300), (80, 900, 500)]

/-- The number of tokens that a model may spend on a text, by its lines. -/
def tokenBudget (code : Text) (fast : Bool) : Nat :=
  let lines := Text.countOf '\n' code + 1
  match budgets.find? fun row => lines ≤ row.1 with
  | some (_, usual, quick) => if fast then quick else usual
  | none => if fast then 600 else 1200

end Request
end Refinery
