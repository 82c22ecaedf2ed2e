import FilterResolution.Json.Stream
import FilterResolution.Filter.Spec
import FilterResolution.Filter.Entity
import FilterResolution.Filter.Error

/-!
Reading filters, specifications and entities from JSON.

A node is first read as a whole document; an object with `field` is a predicate, one with
`operator` or `children` a group, and one with both is refused. A predicate takes its
condition from `type` and the members that condition names; other members are ignored. A
group admits only `operator` and `children`. An operator is its name, or an object whose one
key is the name and whose value is `null`.

A specification is read from text member by member: `filters`, `associations` and
`fast_path` each at most once, other members checked and skipped; it may also be written as
an array of those three in that order, trailing ones left out. Errors come in text order.
-/

namespace FilterResolution.Filter

open FilterResolution.Json

/-- A string document, or the error naming what was found instead. -/
def stringOfDoc (expected : String) (d : Doc) : Except DecodeError String :=
  match d with
  | .string s => .ok s
  | _ => .error (.invalidType d.unexpected expected)

/-- A map of values, or the error naming what was found instead. -/
def valueMapOfDoc (d : Doc) : Except DecodeError (List (String × Value)) :=
  match d with
  | .object members => .ok (members.map fun (k, v) => (k, Value.ofDoc v))
  | _ => .error (.invalidType d.unexpected "a map")

namespace Condition

/-- The condition named by a `type` member: its name, or, where `byIndex` holds, its position
among `names`. -/
def nameOfDoc (byIndex : Bool) (d : Doc) : Except DecodeError String :=
  match d with
  | .string s => if names.contains s then .ok s else .error (.unknownVariant s names)
  | .number (.unsigned n) =>
    if byIndex then
      match names[n.toNat]? with
      | some s => .ok s
      | none => .error (.invalidValue (.unsigned n.toNat) "variant index 0 <= i < 7")
    else .error (.invalidType d.unexpected "variant identifier")
  | _ => .error (.invalidType d.unexpected "variant identifier")

/-- The name of the variant of a condition, as diagnostics write it. -/
def variantTitle : String → String
  | "equals" => "PredicateKind::Equals"
  | "equals_any" => "PredicateKind::EqualsAny"
  | "not_equals" => "PredicateKind::NotEquals"
  | "contains" => "PredicateKind::Contains"
  | "prefix" => "PredicateKind::Prefix"
  | "suffix" => "PredicateKind::Suffix"
  | _ => "PredicateKind::Range"

/-- The condition called `name` from its members written as array elements, in declaration
order; bounds of a range may be left out, and no element may be left over. -/
def ofElements (name : String) (elems : List Doc) : Except DecodeError Condition := do
  let arity := if name == "range" then 4 else 1
  let counted (n : Nat) : String :=
    if n == 1 then "1 element in sequence" else toString n ++ " elements in sequence"
  let c ← match name, elems with
    | "range", _ =>
      let bound (i : Nat) : Option Value :=
        match elems[i]? with
        | none => none
        | some .null => none
        | some d => some (Value.ofDoc d)
      pure (.range (bound 0) (bound 1) (bound 2) (bound 3))
    | _, [] => .error (.invalidLength 0 ("struct variant " ++ variantTitle name ++ " with 1 element"))
    | "equals", d :: _ => pure (.equals (Value.ofDoc d))
    | "not_equals", d :: _ => pure (.notEquals (Value.ofDoc d))
    | "equals_any", d :: _ =>
      match d with
      | .array items => pure (.equalsAny (items.map Value.ofDoc))
      | _ => .error (.invalidType d.unexpected "a sequence")
    | "contains", d :: _ => (stringOfDoc "a string" d).map .contains
    | "prefix", d :: _ => (stringOfDoc "a string" d).map .startsWith
    | _, d :: _ => (stringOfDoc "a string" d).map .endsWith
  if arity < elems.length then .error (.invalidLength elems.length (counted arity)) else pure c

/-- The condition called `name` from the remaining members of a predicate object. -/
def ofMembers (name : String) (members : List (String × Doc)) : Except DecodeError Condition :=
  let member (k : String) : Option Doc := KeyMap.get? k members
  let bound (k : String) : Option Value :=
    match member k with
    | none => none
    | some .null => none
    | some d => some (Value.ofDoc d)
  let text : Except DecodeError String :=
    match member "value" with
    | none => .error (.missingField "value")
    | some d => stringOfDoc "a string" d
  match name with
  | "equals" => (member "value").elim (.error (.missingField "value")) fun d => .ok (.equals (Value.ofDoc d))
  | "not_equals" =>
    (member "value").elim (.error (.missingField "value")) fun d => .ok (.notEquals (Value.ofDoc d))
  | "equals_any" =>
    match member "values" with
    | none => .error (.missingField "values")
    | some (.array items) => .ok (.equalsAny (items.map Value.ofDoc))
    | some d => .error (.invalidType d.unexpected "a sequence")
  | "contains" => text.map .contains
  | "prefix" => text.map .startsWith
  | "suffix" => text.map .endsWith
  | _ => .ok (.range (bound "gt") (bound "gte") (bound "lt") (bound "lte"))

end Condition

/-- A predicate from the members of its object, in key order: `field` must be a string, then
the condition is read from `type` and the other members. -/
def predicateOfMembers (members : List (String × Doc)) : Except DecodeError Predicate := do
  let field ← match KeyMap.get? "field" members with
    | none => .error (.missingField "field")
    | some d => stringOfDoc "a string" d
  let rest := members.filter (·.1 != "field")
  let name ← match KeyMap.get? "type" rest with
    | none => .error (.missingField "type")
    | some d => Condition.nameOfDoc true d
  let condition ← Condition.ofMembers name (rest.filter (·.1 != "type"))
  pure ⟨field, condition⟩

/-- An operator from a document: its name, or an object whose one key is the name and whose
value is `null`. -/
def operatorOfDoc (d : Doc) : Except DecodeError Operator :=
  let named (s : String) : Except DecodeError Operator :=
    match Operator.ofName? s with
    | some op => .ok op
    | none => .error (.unknownVariant s Operator.names)
  match d with
  | .string s => named s
  | .object [(k, v)] =>
    match named k with
    | .error e => .error e
    | .ok op =>
      match v with
      | .null => .ok op
      | _ => .error (.invalidType v.unexpected "unit")
  | .object _ => .error (.invalidValue .map "map with a single key")
  | _ => .error (.invalidType d.unexpected "string or map")

mutual
/-- A node from a document. -/
def nodeOfDoc : Doc → Except DecodeError Node
  | .object members =>
    let isPredicate := KeyMap.contains "field" members
    let isGroup := KeyMap.contains "operator" members || KeyMap.contains "children" members
    if isPredicate && isGroup then .error (.custom "filter node mixes predicate and group keys")
    else if isPredicate then (predicateOfMembers members).map .pred
    else groupOfMembers none none members
  | _ => .error (.custom "filter node must be a JSON object")

/-- A group from the members of its object, in key order. -/
def groupOfMembers : Option Operator → Option (List Node) → List (String × Doc) →
    Except DecodeError Node
  | op, children, [] =>
    match op with
    | none => .error (.missingField "operator")
    | some op => .ok (.group op (children.getD []))
  | op, children, (k, d) :: rest =>
    if k == "operator" then
      match operatorOfDoc d with
      | .error e => .error e
      | .ok o => groupOfMembers (some o) children rest
    else if k == "children" then
      match d with
      | .array items =>
        match nodesOfDocs items with
        | .error e => .error e
        | .ok ns => groupOfMembers op (some ns) rest
      | _ => .error (.invalidType d.unexpected "a sequence")
    else .error (.unknownField k ["operator", "children"])

/-- Nodes from the elements of an array. -/
def nodesOfDocs : List Doc → Except DecodeError (List Node)
  | [] => .ok []
  | d :: rest =>
    match nodeOfDoc d with
    | .error e => .error e
    | .ok n => (nodesOfDocs rest).map (n :: ·)
end

/-- A list of nodes from a document. -/
def nodesOfDoc (d : Doc) : Except DecodeError (List Node) :=
  match d with
  | .array items => nodesOfDocs items
  | _ => .error (.invalidType d.unexpected "a sequence")

/-- A condition read on its own: an object with `type` and the condition's members, or an
array of the name followed by the members in declaration order. -/
def conditionOfDoc (d : Doc) : Except DecodeError Condition :=
  match d with
  | .object members => do
    let name ← match KeyMap.get? "type" members with
      | none => .error (.missingField "type")
      | some t => Condition.nameOfDoc false t
    Condition.ofMembers name (members.filter (·.1 != "type"))
  | .array [] => .error (.missingField "type")
  | .array (t :: rest) => do
    let name ← Condition.nameOfDoc false t
    Condition.ofElements name rest
  | _ => .error (.invalidType d.unexpected "internally tagged enum PredicateKind")

/-! ## From text -/

/-- A node from text: the whole value is read first, then its shape is checked. -/
def nodeText (room : Nat) (cs : List Char) : Except DecodeError (Node × List Char) := do
  let (d, r) ← readDoc (fuelFor cs) room cs
  let n ← nodeOfDoc d
  pure (n, r)

/-- A list of nodes from text. -/
def nodesText (room : Nat) (cs : List Char) : Except DecodeError (List Node × List Char) :=
  readSeq "a sequence" nodeText room cs

/-- The members of a specification object read so far. -/
structure SpecFields where
  filters : Option (List Node) := none
  associations : Option (List (String × Spec)) := none
  fastPath : Option Bool := none

/-- The specification of the members read. -/
def SpecFields.toSpec (st : SpecFields) : Spec :=
  { filters := st.filters.getD [], associations := st.associations.getD [],
    fastPath := st.fastPath.getD true }

/-- An element of an array holding a specification's fields, or `default` at its end. -/
def readSlot {α : Type} (elem : List Char → Except DecodeError (α × List Char)) (default : α)
    (first : Bool) (cs : List Char) : Except DecodeError (α × List Char) :=
  match nextElement first cs with
  | .error e => .error e
  | .ok none => .ok (default, cs)
  | .ok (some cs) => elem cs

/-- A specification from text; `fuel` bounds the nesting of sub-specifications. -/
def specText : Nat → Nat → List Char → Except DecodeError (Spec × List Char)
  | 0, _, _ => fail .eofInValue
  | fuel + 1, room, cs =>
    match skipBlank cs with
    | [] => fail .eofInValue
    | c :: r =>
      if c == '[' then do
        let inner ← enter room
        let (filters, r) ← readSlot (nodesText inner) [] true r
        let (associations, r) ←
          readSlot (readMap "a map" (fun room cs => specText fuel room cs) inner) [] false r
        let (fastPath, r) ← readSlot readBool true false r
        let r ← closeList r
        pure ({ filters, associations, fastPath }, r)
      else if c == '\x7b' then do
        let inner ← enter room
        let visit (st : SpecFields) (key : String) (r : List Char) :
            Except DecodeError (SpecFields × List Char) :=
          if key == "filters" then
            if st.filters.isSome then .error (.duplicateField "filters") else do
              let r ← readColon r
              let (v, r) ← nodesText inner r
              pure ({ st with filters := some v }, r)
          else if key == "associations" then
            if st.associations.isSome then .error (.duplicateField "associations") else do
              let r ← readColon r
              let (v, r) ← readMap "a map" (fun room cs => specText fuel room cs) inner r
              pure ({ st with associations := some v }, r)
          else if key == "fast_path" then
            if st.fastPath.isSome then .error (.duplicateField "fast_path") else do
              let r ← readColon r
              let (v, r) ← readBool r
              pure ({ st with fastPath := some v }, r)
          else do
            let r ← readColon r
            let r ← skipValue r
            pure (st, r)
        let (st, r) ← walkMembers visit (fuelFor r) {} true r
        let r ← closeObject r
        pure (st.toSpec, r)
      else .error (invalidAt "struct Specification" (c :: r))

/-- A value from text: the whole JSON value is read, and every JSON value is a value. -/
def valueText (room : Nat) (cs : List Char) : Except DecodeError (Value × List Char) := do
  let (d, r) ← readDoc (fuelFor cs) room cs
  pure (Value.ofDoc d, r)

/-- The members of an entity object read so far. -/
structure EntityFields where
  id : Option String := none
  fields : Option (List (String × Value)) := none
  computed : Option (List (String × Value)) := none

/-- An entity from text: an object with a string `id` and optional `fields` and `computed`
maps, other keys skipped, or an array of the three in that order. -/
def entityText (room : Nat) (cs : List Char) : Except DecodeError (Entity × List Char) :=
  match skipBlank cs with
  | [] => fail .eofInValue
  | c :: r =>
    if c == '[' then do
      let inner ← enter room
      let (ident, r) ← match nextElement true r with
        | .error e => .error e
        | .ok none => .error (.invalidLength 0 "struct Entity with 3 elements")
        | .ok (some r) => readStringValue "a string" r
      let (fields, r) ← readSlot (readMap "a map" valueText inner) [] false r
      let (computed, r) ← readSlot (readMap "a map" valueText inner) [] false r
      let r ← closeList r
      pure ({ id := ident, fields, computed }, r)
    else if c == '\x7b' then do
      let inner ← enter room
      let visit (st : EntityFields) (key : String) (r : List Char) :
          Except DecodeError (EntityFields × List Char) :=
        if key == "id" then
          if st.id.isSome then .error (.duplicateField "id") else do
            let r ← readColon r
            let (v, r) ← readStringValue "a string" r
            pure ({ st with id := some v }, r)
        else if key == "fields" then
          if st.fields.isSome then .error (.duplicateField "fields") else do
            let r ← readColon r
            let (v, r) ← readMap "a map" valueText inner r
            pure ({ st with fields := some v }, r)
        else if key == "computed" then
          if st.computed.isSome then .error (.duplicateField "computed") else do
            let r ← readColon r
            let (v, r) ← readMap "a map" valueText inner r
            pure ({ st with computed := some v }, r)
        else do
          let r ← readColon r
          let r ← skipValue r
          pure (st, r)
      let (st, r) ← walkMembers visit (fuelFor r) {} true r
      let some ident := st.id | .error (.missingField "id")
      let r ← closeObject r
      pure ({ id := ident, fields := st.fields.getD [], computed := st.computed.getD [] }, r)
    else .error (invalidAt "struct Entity" (c :: r))

namespace Spec

/-- A specification from JSON text. -/
def ofJson (text : String) : Except FilterError Spec :=
  (readAll (specText (depthLimit + 1)) text).mapError .serialization

/-- Whether the JSON text of a specification reads back as an equal specification; reading
it back fails when the text nests deeper than the reader allows. -/
def jsonRoundTrips (s : Spec) : Except FilterError Bool :=
  (ofJson s.toDoc.render).map (·.same s)

end Spec

namespace Node

/-- A node from JSON text. -/
def ofJson (text : String) : Except DecodeError Node := readAll nodeText text

/-- A list of nodes from JSON text. -/
def listOfJson (text : String) : Except DecodeError (List Node) := readAll nodesText text

/-- Whether the JSON document of a node reads back as an equal node. The document keeps every
double as it is, unlike the text a specification is checked through. -/
def jsonRoundTrips (n : Node) : Bool :=
  match nodeOfDoc n.toDoc with
  | .ok m => m.same n
  | .error _ => false

end Node

namespace Value

/-- A value from JSON text. -/
def ofJson (text : String) : Except DecodeError Value := readAll valueText text

end Value

namespace Entity

/-- A list of entities from JSON text. -/
def listOfJson (text : String) : Except DecodeError (List Entity) :=
  readAll (readSeq "a sequence" entityText) text

end Entity

end FilterResolution.Filter
