import FilterResolution.Scripting.Basic
import FilterResolution.Filter.Decode

/-!
Scripts from JSON. A script is an object with a string `name`, a list of `fields`, and lists
of steps under `preprocess`, `create` and `inject`. A phase that is not a list takes its
default: no preparing, every virtual predicate moved to `<name>_computed_flag`, and `true`
attached.

A step of creating or attaching does the first thing its keys name, in a fixed order; a key
whose value has the wrong shape is passed over, and a step with no such key does nothing. A
step of preparing runs both of its checks. Nothing in a step is checked before it runs: a
`raise` of an unknown kind and an `emit` whose predicate does not decode both become invariant
violations raised when the step is reached.
-/

namespace FilterResolution.Scripting

open FilterResolution.Json FilterResolution.Filter FilterResolution.Virtual

/-- A text member, or `""`. -/
def textOf (d : Doc) (key : String) : String := ((d.get? key).bind Doc.asString?).getD ""

/-- A member that is text; a member of another shape counts as absent. -/
def text? (d : Doc) (key : String) : Option String := (d.get? key).bind Doc.asString?

/-- The error a `raise` step of the given kind describes. -/
def raiseOf (d : Doc) (kind : String) : Raise :=
  let message := textOf d "message"
  let association := text? d "association"
  match kind with
  | "resolver" => .resolver association message
  | "invariant" => .invariant message
  | "nested" => .nested message
  | "filters_on" => .filtersOn message
  | "invalid_field" => .invalidField (textOf d "field") association
  | "unsupported" => .unsupported (textOf d "field") (textOf d "kind")
  | "too_deep" => .tooDeep (((d.get? "max").bind Doc.asNat?).getD 0)
  | other => .invariant ("driver: unknown raise kind " ++ other)

/-- The raise of a step that has a `raise` member of any value; its kind is that value when it
is text, and `""` otherwise. -/
def raise? (d : Doc) : Option Raise :=
  (d.get? "raise").map fun k => raiseOf d ((k.asString?).getD "")

/-- The preparing actions of a step, in the order they run. -/
def prepareStepOf (d : Doc) : List PrepareStep :=
  (raise? d).toList.map .raise ++ (text? d "virtual_values").toList.map .virtualValues ++
    (text? d "parent_values").toList.map .parentValues

/-- The predicate an `emit` member describes, or the invariant violation its decoding gives. -/
def emitOf (p : Doc) (relative : Bool) : Action :=
  let decoded := match p with
    | .object members => predicateOfMembers members
    | other => .error (DecodeError.invalidType other.unexpected "struct Predicate")
  match decoded with
  | .ok q => .emit q relative
  | .error e => .raise (.invariant ("driver: bad emit predicate: " ++ e.message))

/-- The action of a creating step: a `raise`, or else the first of the actions whose key it
has, the text-valued ones counting only when their value is text. -/
def actionOf? (d : Doc) : Option Action :=
  let target := textOf d "to"
  let relative := ((d.get? "relative").bind Doc.asBool?).getD false
  (raise? d).map .raise <|>
    (text? d "each").map .each <|>
    (text? d "each_raw").map .eachRaw <|>
    (text? d "virtual").map (.onVirtual · target) <|>
    (text? d "virtual_in").map (.virtualIn · target) <|>
    (text? d "parent").map (.onParent · target) <|>
    (text? d "parent_in").map (.parentIn · target) <|>
    (text? d "virtual_path").map (.virtualPath · target) <|>
    (d.get? "emit").map (emitOf · relative) <|>
    (d.get? "batch").map fun _ => .batch target

/-- A creating step, or none for a step with no action; its `if_prefix` limits it only when
that is text. -/
def createStepOf (d : Doc) : List CreateStep :=
  ((actionOf? d).map fun action => { onlyAt := text? d "if_prefix", action }).toList

/-- The attaching action of a step: a `raise`, or else the first of `set`, `copy` (when text),
`lookup` and `count` that it has. -/
def injectStepOf (d : Doc) : List InjectStep :=
  let lookup (t : Doc) : InjectStep :=
    let table := ((t.asObject?).getD []).map fun (k, v) => (k, Value.ofDoc v)
    .lookup table (((d.get? "default").map Value.ofDoc).getD .null)
  let step : Option InjectStep :=
    (raise? d).map .raise <|>
      (d.get? "set").map (.set ∘ Value.ofDoc) <|>
      (text? d "copy").map .copy <|>
      (d.get? "lookup").map lookup <|>
      (d.get? "count").map fun _ => .count
  step.toList

/-- The actions of a phase read by `step`, or `default` when the phase is not a list. -/
def stepsOf {α : Type} (d : Doc) (key : String) (step : Doc → List α) (default : List α) :
    List α :=
  match d.get? key with
  | some (.array items) => items.flatMap step
  | _ => default

/-- A script from its JSON object. -/
def Script.ofDoc (d : Doc) : Except String Script := do
  let some name := (d.get? "name").bind Doc.asString?
    | .error "resolver needs a string name"
  let fields ← match d.get? "fields" with
    | none => .ok []
    | some (.array items) =>
      match items.mapM Doc.asString? with
      | some fs => .ok fs
      | none => .error "resolver fields must be strings"
    | some _ => .error "resolver fields must be a list"
  let prepare := stepsOf d "preprocess" prepareStepOf []
  let create := stepsOf d "create" createStepOf [{ action := .each (name ++ "_computed_flag") }]
  let inject := stepsOf d "inject" injectStepOf [.set (.bool true)]
  pure { name, fields, prepare, create, inject }

end FilterResolution.Scripting
