import FilterResolution.Json.Error

/-!
Errors of the filter model: an operator name that names no operator, and JSON that does not
read as what was asked for.
-/

namespace FilterResolution.Filter

open FilterResolution.Json

/-- Why building a filter failed. -/
inductive FilterError where
  | unknownOperator (text : String)
  | serialization (e : DecodeError)
  deriving Repr

namespace FilterError

/-- The message of the error. -/
def message : FilterError → String
  | .unknownOperator text => "unknown group operator: " ++ text
  | .serialization e => "serialization error: " ++ e.message

/-- The name of the kind of error. -/
def kind : FilterError → String
  | .unknownOperator _ => "UnknownOperator"
  | .serialization _ => "Serialization"

/-- The message of the underlying reading error, if there is one. -/
def cause? : FilterError → Option String
  | .unknownOperator _ => none
  | .serialization e => some e.message

/-- The diagnostic form: the kind with its data quoted. -/
def diagnostic : FilterError → String
  | .unknownOperator text => "UnknownOperator(" ++ Text.quote text ++ ")"
  | .serialization e => "Serialization(Error(" ++ Text.quote e.message ++ "))"

end FilterError

end FilterResolution.Filter
