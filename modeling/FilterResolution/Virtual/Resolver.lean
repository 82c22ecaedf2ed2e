import FilterResolution.Virtual.Context
import FilterResolution.Filter.Entity

/-!
Resolvers: the owner of one virtual association. A resolver names the fields that may follow
the association in a filter path, turns the predicates on them into predicates on real
fields, and attaches computed values to loaded parents.

Resolving asks a resolver in two phases per batch: it prepares once with the contexts of all
its points, and what it prepared then creates each point's replacements. A resolver is usually
built from the two phases with a prepared value of its own type (`Resolver.ofPhases`); the
registry sees only the result of preparing. Attaching values may fail part way, so `inject`
returns the parents as they stand together with the failure.
-/

namespace FilterResolution.Virtual

open FilterResolution.Filter

/-- What preparing a batch gives: the real predicates replacing a point's virtual ones. With a
non-empty parent path each must lie under it. -/
abbrev Creator := Context → Except ResolveError (List Predicate)

/-- The owner of one virtual association. -/
structure Resolver where
  /-- The association name used in field paths. -/
  association : String
  /-- The names that may follow the association name in a filter path. -/
  fields : List String
  /-- Prepares a batch once from the contexts of all its points. -/
  preprocess : List Context → Except ResolveError Creator
  /-- Attaches computed values to the parents; never given an empty list. -/
  inject : List Entity → List Entity × Option ResolveError

/-- A resolver from its phases: `preprocess` computes a value once per batch, which `create`
receives at every point. -/
def Resolver.ofPhases {Prepared : Type} (association : String) (fields : List String)
    (preprocess : List Context → Except ResolveError Prepared)
    (create : Context → Prepared → Except ResolveError (List Predicate))
    (inject : List Entity → List Entity × Option ResolveError) : Resolver where
  association
  fields
  preprocess contexts := (preprocess contexts).map fun prepared c => create c prepared
  inject

/-- The diagnostic form of a resolver: its association in parentheses. -/
def Resolver.diagnostic (r : Resolver) : String := "Resolver(" ++ r.association ++ ")"

end FilterResolution.Virtual
