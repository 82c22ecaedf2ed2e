import FilterResolution.Virtual.Registry
import FilterResolution.Filter.Spec

/-!
Attaching computed associations after loading. Every association a specification names that
is registered, in name order, has its resolver attach values to the whole list of parents at
once. An empty list gets nothing. A failing resolver stops the load; the parents keep what was
attached up to then, including the failing resolver's own partial work.
-/

namespace FilterResolution.Virtual

open FilterResolution.Filter

/-- The outcome of a load. -/
structure Loaded where
  /-- The associations attached, in order. -/
  injected : List String := []
  entities : List Entity
  failure : Option ResolveError := none

/-- Attaches the associations among `names` that are registered, stopping at a failure. -/
def injectAll (reg : Registry) : List String → Loaded → StateM (List Event) Loaded
  | [], acc => pure acc
  | name :: rest, acc =>
    match reg.get? name with
    | none => injectAll reg rest acc
    | some entry => do
      note .debug .loader "Injecting computed association"
        [("association", .text name), ("parents", .count acc.entities.length)]
      record (.injected name (acc.entities.map (·.id)))
      let (entities, failure) := entry.resolver.inject acc.entities
      match failure with
      | some e => pure { acc with entities, failure := some e }
      | none => injectAll reg rest { acc with entities, injected := acc.injected ++ [name] }

/-- Attaches every virtual association the specification names to the parents. -/
def Registry.load (reg : Registry) (spec : Spec) (entities : List Entity) :
    StateM (List Event) Loaded :=
  if entities.isEmpty then pure { entities }
  else injectAll reg (spec.associations.map (·.1)) { entities }

end FilterResolution.Virtual
