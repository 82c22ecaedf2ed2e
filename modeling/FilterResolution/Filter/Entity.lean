import FilterResolution.Filter.Value

/-!
Entities: an identifier with stored fields and computed values, both maps by name.
-/

namespace FilterResolution.Filter

open FilterResolution.Json

/-- A parent entity with its stored fields and the values computed for its associations. -/
structure Entity where
  id : String
  fields : List (String × Value) := []
  computed : List (String × Value) := []
  deriving Inhabited

namespace Entity

/-- Sets a stored field. -/
def withField (e : Entity) (name : String) (v : Value) : Entity :=
  { e with fields := KeyMap.insert name v e.fields }

/-- A stored field. -/
def field? (e : Entity) (name : String) : Option Value := KeyMap.get? name e.fields

/-- Sets the computed value of an association. -/
def setComputed (e : Entity) (association : String) (v : Value) : Entity :=
  { e with computed := KeyMap.insert association v e.computed }

/-- The computed value of an association. -/
def computed? (e : Entity) (association : String) : Option Value :=
  KeyMap.get? association e.computed

/-- The JSON form of an entity. -/
def toDoc (e : Entity) : Doc :=
  .object [("id", .string e.id),
    ("fields", .object (e.fields.map fun (k, v) => (k, v.toDoc))),
    ("computed", .object (e.computed.map fun (k, v) => (k, v.toDoc)))]

end Entity

end FilterResolution.Filter
