import FilterResolution.Virtual.FieldPath
import FilterResolution.Virtual.Report
import FilterResolution.Filter.Spec

/-!
Resolving a specification. Every container of the top-level filters is walked in order:
ordinary predicates and groups stay in their order, predicates through a virtual association
are taken out, grouped per container by parent path and association into injection points.
The points are then handed to their resolvers batch by batch, an association's batch in the
order its first point was found; each point's replacements are appended to its container.

Specifications whose virtual associations carry filters of their own are refused first. Groups
nested deeper than the configured limit are refused. The resolution works on a copy: the
specification is replaced, and its fast path turned off, only when every step succeeded.
-/

namespace FilterResolution.Virtual

open FilterResolution.Filter

/-- Goes on with the value, or fails the run with the error. -/
def Run.ofExcept {α : Type} : Except ResolveError α → Run α
  | .ok a => pure a
  | .error e => throw e

/-- An engine: a registry with its configuration. -/
structure Engine where
  registry : Registry
  config : Config := {}

/-- Virtual predicates of one container keyed by parent path and association, keys in the
order first found. -/
abbrev Buckets := List ((String × String) × List Predicate)

/-- Adds a predicate under a key. -/
def Buckets.add (key : String × String) (p : Predicate) : Buckets → Buckets
  | [] => [(key, [p])]
  | (k, ps) :: rest => if k = key then (k, ps ++ [p]) :: rest else (k, ps) :: Buckets.add key p rest

/-- The injection points of a container's buckets. -/
def Buckets.points (path : ContainerPath) (b : Buckets) : List Point :=
  b.map fun ((parentPath, association), predicates) =>
    { container := path, parentPath, association, predicates }

/-- The result of walking part of a container: the nodes kept so far, the buckets of the
container, and the points of the groups inside it in the order they were completed. -/
abbrev Walk := List Node × Buckets × List Point

mutual
/-- Walks the nodes of the container at `path`. -/
def stripNodes (reg : Registry) (limit : Nat) (path : ContainerPath) :
    List Node → Walk → Run Walk
  | [], w => pure w
  | n :: rest, w => do
    let w ← stripNode reg limit path n w
    stripNodes reg limit path rest w

/-- Walks one node of the container at `path`. A group is walked first, then kept in place;
its position counts only the nodes kept before it. -/
def stripNode (reg : Registry) (limit : Nat) (path : ContainerPath) : Node → Walk → Run Walk
  | .pred p, (kept, buckets, points) => do
    match ← Run.ofExcept (VirtualField.parse reg p.field) with
    | none => pure (kept ++ [.pred p], buckets, points)
    | some vf =>
      note .trace .engine "Matched virtual association predicate"
        [("field", .text p.field), ("association", .text vf.association)]
      pure (kept, buckets.add (vf.parentPath, vf.association) p, points)
  | .group op children, (kept, buckets, points) => do
    let inner := path.child kept.length
    if limit < inner.depth then throw (.filterTreeTooDeep limit)
    let (children, innerBuckets, nested) ← stripNodes reg limit inner children ([], [], [])
    pure (kept ++ [.group op children], buckets,
      points ++ nested ++ Buckets.points inner innerBuckets)
end

/-- Takes the virtual predicates out of a filter list: the filters left and the injection
points, those of a group before those of the container holding it. -/
def collectPoints (reg : Registry) (limit : Nat) (filters : List Node) :
    Run (List Node × List Point) := do
  let (kept, buckets, nested) ← stripNodes reg limit .root filters ([], [], [])
  pure (kept, nested ++ Buckets.points .root buckets)

/-- Points grouped by association, associations in the order of their first point. -/
def batchesOf (points : List Point) : List (String × List Point) :=
  let add (bs : List (String × List Point)) (p : Point) : List (String × List Point) :=
    if bs.any (·.1 == p.association) then
      bs.map fun (a, ps) => if a == p.association then (a, ps ++ [p]) else (a, ps)
    else bs ++ [(p.association, [p])]
  points.foldl add []

/-- The error for a point whose container cannot be found. -/
def missingContainer (p : Point) : ResolveError :=
  .invariantViolation ("container " ++ p.container.render ++ " for \"" ++ p.association ++
    "\" no longer exists")

/-- The error for a replacement whose field lies outside its point's parent path. -/
def escapeError (p : Point) (q : Predicate) : ResolveError :=
  .invariantViolation ("resolver \"" ++ p.association ++ "\" produced predicate on \"" ++
    q.field ++ "\" outside prefix \"" ++ p.parentPath ++ "\"")

/-- The error for an association the registry no longer has. -/
def vanishedError (association : String) : ResolveError :=
  .invariantViolation ("association \"" ++ association ++ "\" vanished from the registry")

/-- Whether a field lies under a parent path: always at the top, else below `parent.`. -/
def withinParent (parentPath field : String) : Bool :=
  parentPath.isEmpty || field.startsWith (parentPath ++ ".")

/-- Refuses the first replacement that does not lie under the point's parent path. -/
def checkWithin (p : Point) : List Predicate → Run Unit
  | [] => pure ()
  | q :: rest =>
    if withinParent p.parentPath q.field then checkWithin p rest
    else do
      note .error .plan "Resolver produced a replacement predicate outside its prefix"
        [("association", .text p.association), ("prefix", .text p.parentPath),
          ("field", .text q.field)]
      throw (escapeError p q)

/-- The contexts of points: each with the predicates standing in its container. -/
def contextsOf (filters : List Node) : List Point → Run (List Context)
  | [] => pure []
  | p :: rest => do
    let some siblings := predicatesAt filters p.container | throw (missingContainer p)
    let cs ← contextsOf filters rest
    pure (⟨p, siblings⟩ :: cs)

/-- Asks what the resolver of `association` prepared for each context's replacements and
appends them to the context's container. -/
def createEach (association : String) (create : Creator) :
    List Context → List Node → Report → Run (List Node × Report)
  | [], filters, report => pure (filters, report)
  | c :: rest, filters, report => do
    record (.created association c)
    let replacements ← Run.ofExcept (create c)
    checkWithin c.point replacements
    let some filters := updateAt filters c.container (· ++ replacements.map .pred)
      | throw (missingContainer c.point)
    createEach association create rest filters
      { report with injections := report.injections ++ [.ofPoint c.point replacements] }

/-- Runs one association's batch: contexts are taken from the filters as they stand, the
resolver prepares once, then creates point by point. -/
def applyBatch (reg : Registry) (filters : List Node) (report : Report)
    (batch : String × List Point) : Run (List Node × Report) := do
  let (association, points) := batch
  let contexts ← contextsOf filters points
  note .debug .plan "Applying virtual association batch"
    [("association", .text association), ("injection_points", .count contexts.length)]
  let some entry := reg.get? association
    | throw (vanishedError association)
  record (.preprocessed association contexts)
  let create ← Run.ofExcept (entry.resolver.preprocess contexts)
  let (filters, report) ← createEach association create contexts filters report
  pure (filters, { report with batches := report.batches ++ [⟨association, points.length⟩] })

/-- Runs the batches in order. -/
def applyBatches (reg : Registry) :
    List (String × List Point) → List Node → Report → Run (List Node × Report)
  | [], filters, report => pure (filters, report)
  | b :: rest, filters, report => do
    let (filters, report) ← applyBatch reg filters report b
    applyBatches reg rest filters report

mutual
/-- Refuses a registered association that carries filters, at any depth. -/
def validateSpec (reg : Registry) : Spec → Except ResolveError Unit
  | ⟨_, associations, _⟩ => validateAssociations reg associations

/-- Refuses a registered association among these that carries filters, at any depth. -/
def validateAssociations (reg : Registry) : List (String × Spec) → Except ResolveError Unit
  | [] => .ok ()
  | (name, sub) :: rest =>
    if reg.contains name && sub.hasFilters then .error (.filtersOnVirtualAssociation name)
    else
      match validateSpec reg sub with
      | .error e => .error e
      | .ok () => validateAssociations reg rest
end

/-- A resolution in place: a run that reads, and may rewrite, the specification it is given.
A failure keeps the specification as it stands when the failure happens. -/
abbrev InPlace := ExceptT ResolveError (StateT Spec (StateM (List Event)))

/-- A run in place that leaves the specification alone. -/
def Run.inPlace {α : Type} (x : Run α) : InPlace α := ExceptT.mk (StateT.lift x.run)

namespace Engine

/-- Refuses filters attached directly to a virtual association's sub-specification. -/
def validate (engine : Engine) (spec : Spec) : Except ResolveError Unit := validateSpec engine.registry spec

/-- Replaces the virtual predicates of the specification's top-level filters in place, turning
its fast path off when anything was replaced, and gives the report. The filters are resolved in
a copy, which replaces them once every step has succeeded. -/
def resolve (engine : Engine) : InPlace Report := do
  let spec ← getThe Spec
  Run.inPlace (Run.ofExcept (engine.validate spec))
  let (working, points) ←
    Run.inPlace (collectPoints engine.registry engine.config.maxGroupDepth spec.filters)
  if points.isEmpty then
    note .trace .engine "No virtual association filters to rewrite"
    return Report.unchanged
  note .debug .engine "Rewriting virtual association filters"
    [("injection_points", .count points.length)]
  let (working, report) ← Run.inPlace (applyBatches engine.registry (batchesOf points) working {})
  let report := { report with applied := true }
  modifyThe Spec Spec.disableFastPath
  modifyThe Spec (·.replaceFilters working)
  note .debug .engine "Virtual association filters rewritten"
    [("matched", .count report.matchedCount), ("batches", .count report.batches.length)]
  return report

end Engine

end FilterResolution.Virtual
