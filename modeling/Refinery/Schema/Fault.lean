import Refinery.Json.Basic

/-!
What can be wrong with a value that is to fill a field, and where.
-/

namespace Refinery.Schema

/-- A way in which a value does not fit its field. -/
inductive FaultKind where
  | missing
  | extraForbidden
  | modelType
  | modelAttributesType
  | jsonInvalid
  | stringType
  | valueError
  | literalError
  | boolParsing
  | boolType
  | intParsing
  | intParsingSize
  | intFromFloat
  | intType
  | finiteNumber
  | floatParsing
  | floatType
  deriving DecidableEq

/-- The name under which a fault is reported. -/
def FaultKind.name : FaultKind → String
  | missing => "missing"
  | extraForbidden => "extra_forbidden"
  | modelType => "model_type"
  | modelAttributesType => "model_attributes_type"
  | jsonInvalid => "json_invalid"
  | stringType => "string_type"
  | valueError => "value_error"
  | literalError => "literal_error"
  | boolParsing => "bool_parsing"
  | boolType => "bool_type"
  | intParsing => "int_parsing"
  | intParsingSize => "int_parsing_size"
  | intFromFloat => "int_from_float"
  | intType => "int_type"
  | finiteNumber => "finite_number"
  | floatParsing => "float_parsing"
  | floatType => "float_type"

/-- A step on the way to a value: a key, or a place in a text. -/
inductive Step where
  | key (name : Text)
  | place (index : Nat)
  deriving DecidableEq

structure Fault where
  kind : FaultKind
  path : List Step
  deriving DecidableEq

def Fault.toJson (f : Fault) : Json :=
  let step : Step → Json
    | .key name => .str name
    | .place i => .int i
  .mkObj [("type", .ofString f.kind.name), ("loc", .arr (f.path.map step))]

def Fault.inField (kind : FaultKind) (name : Text) : Fault := ⟨kind, [.key name]⟩

end Refinery.Schema
