import Refinery.Json.Display
import Refinery.Json.Reader
import Refinery.Session.Failure

/-!
One line of an event stream. A line carries a fragment of generated text, the mark of the end, or
nothing; an error of the backend makes it fail, and so does a payload whose shape cannot be looked
into.
-/

namespace Refinery.Inference

def typeName : Json → String
  | .null => "NoneType"
  | .bool _ => "bool"
  | .int _ => "int"
  | .real _ => "float"
  | .str _ => "str"
  | .arr _ => "list"
  | .obj _ => "dict"

/-- What a stream yields: a text, or another value that the backend put in its place. -/
inductive Fragment where
  | text (t : Text)
  | value (v : Json)

def Fragment.toJson : Fragment → Json
  | text t => .str t
  | value v => v

/-- A value as a fragment, if it counts as present. -/
def Fragment.ofJson? (v : Json) : Option Fragment :=
  if v.truthy then
    match v with
    | .str t => some (.text t)
    | v => some (.value v)
  else none

/-- The texts of fragments joined, or the place and type of the first that is no text. -/
def Fragment.join (index : Nat) : List Fragment → Except Failure Text
  | [] => .ok []
  | .text t :: fs => (Fragment.join (index + 1) fs).map (t ++ ·)
  | .value v :: _ => .error (.other .type
      ("sequence item ".toList ++ Text.ofNat index ++ ": expected str instance, ".toList ++
        (typeName v).toList ++ " found".toList))

def Fragment.size : Fragment → Except Failure Nat
  | .text t => .ok t.length
  | .value (.arr items) => .ok items.length
  | .value (.obj fields) => .ok fields.length
  | .value v => .error (.other .type
      ("object of type '".toList ++ (typeName v).toList ++ "' has no len()".toList))

/-- The text of a fragment; another value has none. -/
def Fragment.asText : Fragment → Text
  | .text t => t
  | .value _ => []

inductive Line where
  | nothing
  | endMark
  | fragment (f : Fragment)

namespace Line
open Text

/-- The lead of a line with a payload, and the payload that ends the stream. -/
def dataLead : Text := "data:".toList

def endText : Text := "[DONE]".toList

/-- The value of a key; null where it is absent. Only objects can be asked. -/
def lookup (key : String) (v : Json) : Except Failure Json :=
  match v with
  | .obj _ => .ok ((v.field? key.toList).getD .null)
  | v => .error (.other .attribute
      ("'".toList ++ (typeName v).toList ++ "' object has no attribute 'get'".toList))

/-- The first element of a value that is not empty. -/
def first (v : Json) : Except Failure Json :=
  match v with
  | .arr (item :: _) => .ok item
  | .str (c :: _) => .ok (.str [c])
  | .obj _ => .error (.other .key ['0'])
  | v => .error (.other .type
      ("'".toList ++ (typeName v).toList ++ "' object is not subscriptable".toList))

/-- A value, or an empty object in place of one that is not present. -/
def orEmpty (v : Json) : Json := if v.truthy then v else .obj []

def errorMessage (error : Json) : Text :=
  match error with
  | .obj _ => ((error.field? "message".toList).getD (.str error.display)).display
  | error => error.display

/-- The text in the first of the choices, or in its delta. -/
def choiceText (choices : Json) : Except Failure Json := do
  let choice ← first choices
  match ← lookup "text" choice with
  | .null =>
    let delta ← lookup "delta" choice
    lookup "content" (orEmpty delta)
  | text => return text

/-- The value that a payload carries, if any. -/
def payload (data : Json) : Except Failure (Option Fragment) :=
  match data with
  | .obj _ =>
    let error := (data.field? "error".toList).getD .null
    let choices := (data.field? "choices".toList).getD .null
    if error.truthy then
      .error (.inference ("Inference backend error: ".toList ++ errorMessage error) none)
    else if choices.truthy then (choiceText choices).map Fragment.ofJson?
    else .ok none
  | _ => .ok none

/-- Reads a line. A fragment that spells the mark of the end is one. -/
def read (line : Text) : Except Failure Line :=
  match after? dataLead (trim line) with
  | none => .ok .nothing
  | some rest =>
    let rest := trim rest
    if rest == endText then .ok .endMark
    else match Json.read rest with
      | .error (.malformed _) => .ok .nothing
      | .error .hugeInteger => .error (.other .value
          "Exceeds the limit (4300 digits) for integer string conversion".toList)
      | .ok data => (payload data).map fun
        | none => .nothing
        | some (.text t) => if t == endText then .endMark else .fragment (.text t)
        | some f => .fragment f

end Line
end Refinery.Inference
