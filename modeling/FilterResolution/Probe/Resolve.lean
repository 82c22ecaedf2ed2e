import FilterResolution.Virtual.Run
import FilterResolution.Filter.Decode

/-!
A check of resolving on arbitrary bytes. Text of at most 8192 bytes that reads as a
specification is resolved with one resolver, `flag`, which allows `on` and moves each
predicate to `flag_on` under its parent path. A resolution that succeeds must leave no predicate
on `flag.on` at any parent path; one that fails must leave the specification as it was.
-/

namespace FilterResolution.Probe

open FilterResolution.Filter FilterResolution.Virtual

/-- The resolver of `flag`: every predicate on `flag.on` becomes one on `flag_on`. -/
def flagResolver : Resolver where
  association := "flag"
  fields := ["on"]
  preprocess _ := .ok fun c => .ok (c.predicates.map (·.withField (c.parentFieldPath "flag_on")))
  inject parents := (parents, none)

/-- Whether no predicate of a specification is on `flag.on`. -/
def noFlagLeft (s : Spec) : Bool :=
  s.predicates.all fun p => p.field != "flag.on" && !p.field.endsWith ".flag.on"

/-- Whether resolving a specification with the `flag` resolver keeps the check. -/
def resolveHolds (spec : Spec) : Bool :=
  match (Registry.build .reject [flagResolver]).1 with
  | .error _ => false
  | .ok reg =>
    match (((Engine.resolve { registry := reg }).run.run spec).run []).1 with
    | (.ok _, resolved) => noFlagLeft resolved
    | (.error _, after) => after.same spec

/-- The check on the bytes of one input. -/
def specResolveHolds (data : ByteArray) : Bool :=
  match String.fromUTF8? data with
  | none => true
  | some text =>
    if data.size > 8192 then true
    else match Spec.ofJson text with
      | .ok spec => resolveHolds spec
      | .error _ => true

end FilterResolution.Probe
