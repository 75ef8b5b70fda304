import Refinery.Number.Real

/-!
JSON values. Integers and binary64 numbers are told apart, and an object keeps its keys in the order
in which they were first written.
-/

namespace Refinery

inductive Json where
  | null
  | bool (value : Bool)
  | int (value : Int)
  | real (value : Real64)
  | str (value : Text)
  | arr (items : List Json)
  | obj (fields : List (Text × Json))
  deriving Inhabited

namespace Json

/-- The value of a key, if the value is an object that has it. -/
def field? (key : Text) : Json → Option Json
  | obj fields => (fields.find? fun f => f.1 == key).map (·.2)
  | _ => none

/-- Sets a key: a present key keeps its place. -/
def put (key : Text) (value : Json) (fields : List (Text × Json)) : List (Text × Json) :=
  if fields.any (·.1 == key) then fields.map fun f => if f.1 == key then (key, value) else f
  else fields ++ [(key, value)]

/-- Whether a value counts as present: null, false, zeros and empty values do not. -/
def truthy : Json → Bool
  | null => false
  | bool b => b
  | int i => i != 0
  | real r => !r.isZero
  | str s => !s.isEmpty
  | arr items => !items.isEmpty
  | obj fields => !fields.isEmpty

def text? : Json → Option Text
  | str s => some s
  | _ => none

def ofString (s : String) : Json := str s.toList

def mkObj (fields : List (String × Json)) : Json := obj (fields.map fun (k, v) => (k.toList, v))

end Json
end Refinery
