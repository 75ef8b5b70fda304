import Refinery.Json.Reader
import Refinery.Request.Basic

/-!
Reading the body of a call into a request. Every fault is reported under the key of the body.
-/

namespace Refinery.Service
open Schema

/-- Why a body gives no request. -/
inductive BadBody where
  | invalid (faults : List Fault)
  /-- A number in the body is too long to be read. -/
  | unreadable

namespace Body

/-- A fault inside the body. -/
def fault (kind : FaultKind) (path : List Step) : Fault := ⟨kind, .key "body".toList :: path⟩

def rejected {α : Type} (kind : FaultKind) (path : List Step) : Except BadBody α :=
  .error (.invalid [fault kind path])

/-- The text of a body without the mark of its encoding. -/
def unmarked : Text → Text
  | '\ufeff' :: t => t
  | t => t

def json (body : Text) : Except BadBody Json :=
  let t := unmarked body
  match Json.read t with
  | .ok v => .ok v
  | .error .hugeInteger => .error .unreadable
  | .error why => rejected .jsonInvalid [.place (why.position t)]

/-- Reads a value into a request. Null counts as no body at all. -/
def ofJson (v : Json) : Except BadBody Request :=
  match v with
  | .null => rejected .missing []
  | .obj _ => (Request.ofJson v).mapError fun faults =>
    .invalid (faults.map fun f => fault f.kind f.path)
  | _ => rejected .modelAttributesType []

def request (body : Text) : Except BadBody Request :=
  if body.isEmpty then rejected .missing [] else json body >>= ofJson

end Body
end Refinery.Service
