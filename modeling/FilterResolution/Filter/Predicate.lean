import FilterResolution.Filter.Value

/-!
Predicates: a field path and a condition on its value. Equality conditions hold values; text
conditions hold text; a range holds any of four bounds, written in the order `>`, `>=`, `<`,
`<=`. In JSON a predicate is one object: `field`, the condition's name under `type`, and the
condition's own members, absent bounds left out.
-/

namespace FilterResolution.Filter

open FilterResolution.Json

/-- What a predicate requires of its field. -/
inductive Condition where
  | equals (value : Value)
  | equalsAny (values : List Value)
  | notEquals (value : Value)
  | contains (text : String)
  | startsWith (text : String)
  | endsWith (text : String)
  | range (gt gte lt lte : Option Value)
  deriving Inhabited

namespace Condition

/-- The names of the conditions, in declaration order. -/
def names : List String :=
  ["equals", "equals_any", "not_equals", "contains", "prefix", "suffix", "range"]

/-- The name of a condition. -/
def name : Condition → String
  | .equals _ => "equals"
  | .equalsAny _ => "equals_any"
  | .notEquals _ => "not_equals"
  | .contains _ => "contains"
  | .startsWith _ => "prefix"
  | .endsWith _ => "suffix"
  | .range .. => "range"

/-- Equality of conditions, values compared with `Value.same`. -/
def same : Condition → Condition → Bool
  | .equals a, .equals b => a.same b
  | .equalsAny a, .equalsAny b => Value.sameItems a b
  | .notEquals a, .notEquals b => a.same b
  | .contains a, .contains b => a == b
  | .startsWith a, .startsWith b => a == b
  | .endsWith a, .endsWith b => a == b
  | .range a b c d, .range a' b' c' d' =>
    let bound (x y : Option Value) : Bool :=
      match x, y with
      | none, none => true
      | some x, some y => x.same y
      | _, _ => false
    bound a a' && bound b b' && bound c c' && bound d d'
  | _, _ => false

end Condition

/-- A condition on the value at a field path. -/
structure Predicate where
  field : String
  condition : Condition
  deriving Inhabited

namespace Predicate

/-- `field = value`. -/
def equals (field : String) (value : Value) : Predicate := ⟨field, .equals value⟩

/-- `field IN [values]`. -/
def equalsAny (field : String) (values : List Value) : Predicate := ⟨field, .equalsAny values⟩

/-- `field >= low AND field <= high`. -/
def between (field : String) (low high : Value) : Predicate :=
  ⟨field, .range none (some low) none (some high)⟩

/-- The same condition on another field. -/
def withField (p : Predicate) (field : String) : Predicate := { p with field }

/-- The values an equality predicate accepts: its one value, or its list; `none` for the other
conditions. -/
def equalityValues (p : Predicate) : Option (List Value) :=
  match p.condition with
  | .equals v => some [v]
  | .equalsAny vs => some vs
  | _ => none

/-- The text of a predicate. -/
def render (p : Predicate) : String :=
  let f := p.field
  match p.condition with
  | .equals v => f ++ " = " ++ v.render
  | .equalsAny vs => f ++ " IN " ++ (Value.list vs).render
  | .notEquals v => f ++ " != " ++ v.render
  | .contains t => f ++ " CONTAINS '" ++ t ++ "'"
  | .startsWith t => f ++ " STARTS WITH '" ++ t ++ "'"
  | .endsWith t => f ++ " ENDS WITH '" ++ t ++ "'"
  | .range gt gte lt lte =>
    let bounds := [(">", gt), (">=", gte), ("<", lt), ("<=", lte)].filterMap fun (op, b) =>
      b.map fun v => f ++ " " ++ op ++ " " ++ v.render
    if bounds.isEmpty then f ++ " IN RANGE (unbounded)" else " AND ".intercalate bounds

/-- The members of the JSON object of a condition, after `type`. -/
def conditionMembers : Condition → List (String × Doc)
  | .equals v => [("value", v.toDoc)]
  | .equalsAny vs => [("values", .array (vs.map Value.toDoc))]
  | .notEquals v => [("value", v.toDoc)]
  | .contains t => [("value", .string t)]
  | .startsWith t => [("value", .string t)]
  | .endsWith t => [("value", .string t)]
  | .range gt gte lt lte =>
    [("gt", gt), ("gte", gte), ("lt", lt), ("lte", lte)].filterMap fun (k, b) =>
      b.map fun v => (k, v.toDoc)

/-- The JSON object of a predicate. -/
def toDoc (p : Predicate) : Doc :=
  .object (("field", .string p.field) :: ("type", .string p.condition.name) ::
    conditionMembers p.condition)

/-- Equality of predicates. -/
def same (p q : Predicate) : Bool := p.field == q.field && p.condition.same q.condition

end Predicate

end FilterResolution.Filter
