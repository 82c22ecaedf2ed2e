import FilterResolution.Virtual.Container
import FilterResolution.Virtual.Error
import FilterResolution.Filter.Path

/-!
Injection points and what a resolver sees of them. A point is a container where predicates
on one association, under one parent path, were taken out. Its context adds the predicates
standing directly in that container when the point's batch began. Field paths are formed by
joining names under the parent path.
-/

namespace FilterResolution.Virtual

open FilterResolution.Filter

/-- Predicates on one virtual association taken out of one container. -/
structure Point where
  container : ContainerPath
  /-- The path of the entity that owns the association; empty at the top. -/
  parentPath : String
  association : String
  predicates : List Predicate
  deriving Inhabited

/-- A point as a resolver sees it. -/
structure Context where
  point : Point
  /-- The predicates standing directly in the point's container. -/
  siblings : List Predicate
  deriving Inhabited

/-- The values of equality predicates in order; the first predicate of another kind fails. -/
def equalityValues : List Predicate → Except ResolveError (List Value)
  | [] => .ok []
  | p :: rest =>
    match p.equalityValues with
    | some vs => (equalityValues rest).map (vs ++ ·)
    | none => .error (.unsupportedPredicateType p.field p.condition.name)

namespace Context

/-- The parent path of the point. -/
def parentPath (c : Context) : String := c.point.parentPath

/-- The association of the point. -/
def association (c : Context) : String := c.point.association

/-- The container of the point. -/
def container (c : Context) : ContainerPath := c.point.container

/-- The predicates taken out at the point. -/
def predicates (c : Context) : List Predicate := c.point.predicates

/-- The full path of a field of the virtual association. -/
def virtualFieldPath (c : Context) (name : String) : String :=
  joinPath (joinPath c.parentPath c.association) name

/-- The full path of a field of the parent entity. -/
def parentFieldPath (c : Context) (name : String) : String := joinPath c.parentPath name

/-- The taken-out predicates on a field of the virtual association. -/
def predicatesOnVirtualField (c : Context) (name : String) : List Predicate :=
  c.predicates.filter (·.field == c.virtualFieldPath name)

/-- The values the taken-out equality predicates on a virtual field accept. -/
def equalityValuesOnVirtualField (c : Context) (name : String) : Except ResolveError (List Value) :=
  equalityValues (c.predicatesOnVirtualField name)

/-- The sibling predicates on a field of the parent entity. -/
def predicatesOnParentField (c : Context) (name : String) : List Predicate :=
  c.siblings.filter (·.field == c.parentFieldPath name)

/-- The values the sibling equality predicates on a parent field accept. -/
def equalityValuesOnParentField (c : Context) (name : String) : Except ResolveError (List Value) :=
  equalityValues (c.predicatesOnParentField name)

end Context

end FilterResolution.Virtual
