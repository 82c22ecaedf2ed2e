import FilterResolution.Virtual.Resolver

/-!
Scripted resolvers: resolvers whose behaviour is a list of steps for each phase. Preparing a
batch may fail or check equality values; creating runs its steps in order and collects what
they produce, a step limited to one parent path being skipped elsewhere; attaching values
sets the association's computed value on every parent. Any step may raise a resolution error.

Preparing and attaching have no per-step condition, so those phases are flat lists of actions.

The prepared value of a batch is its number of points and their parent paths.
-/

namespace FilterResolution.Scripting

open FilterResolution.Filter FilterResolution.Virtual

/-- A resolution error a step raises; an association left out is the resolver's own. -/
inductive Raise where
  | resolver (association : Option String) (message : String)
  | invariant (message : String)
  | nested (message : String)
  | filtersOn (message : String)
  | invalidField (field : String) (association : Option String)
  | unsupported (field kind : String)
  | tooDeep (max : Nat)
  deriving Repr

/-- The error raised by a resolver for association `own`. -/
def Raise.toError (own : String) : Raise → ResolveError
  | .resolver association message => .resolverFailed (association.getD own) message
  | .invariant message => .invariantViolation message
  | .nested message => .nestedFilters message
  | .filtersOn message => .filtersOnVirtualAssociation message
  | .invalidField field association => .invalidFilterField field (association.getD own)
  | .unsupported field kind => .unsupportedPredicateType field kind
  | .tooDeep max => .filterTreeTooDeep max

/-- A step of preparing a batch. -/
inductive PrepareStep where
  | raise (r : Raise)
  /-- Checks that the predicates on a virtual field are equalities. -/
  | virtualValues (field : String)
  /-- Checks that the sibling predicates on a parent field are equalities. -/
  | parentValues (field : String)

/-- What a step of creating produces. Targets are fields of the parent. -/
inductive Action where
  | raise (r : Raise)
  /-- Every virtual predicate, moved to the target field. -/
  | each (target : String)
  /-- Every virtual predicate, moved to the target path as written. -/
  | eachRaw (target : String)
  /-- The virtual predicates on a field, moved to the target field. -/
  | onVirtual (field target : String)
  /-- The target field equal to any of the values the predicates on a virtual field accept. -/
  | virtualIn (field target : String)
  /-- The sibling predicates on a parent field, moved to the target field. -/
  | onParent (field target : String)
  /-- The target field equal to any of the values the sibling predicates on a field accept. -/
  | parentIn (field target : String)
  /-- The target field equal to the full path of a virtual field. -/
  | virtualPath (field target : String)
  /-- A given predicate, its field taken under the parent path when `relative` holds. -/
  | emit (p : Predicate) (relative : Bool)
  /-- The target field equal to a map describing the batch and the point. -/
  | batch (target : String)

/-- A step of creating, run only at the parent path `onlyAt` when that is given. -/
structure CreateStep where
  onlyAt : Option String := none
  action : Action

/-- A step of attaching computed values. -/
inductive InjectStep where
  | raise (r : Raise)
  /-- The same value for every parent. -/
  | set (v : Value)
  /-- The parent's stored field, or null. -/
  | copy (field : String)
  /-- The value listed for the parent's id, or the default. -/
  | lookup (table : List (String × Value)) (default : Value)
  /-- The number of parents. -/
  | count

/-- A scripted resolver. -/
structure Script where
  name : String
  fields : List String := []
  prepare : List PrepareStep := []
  create : List CreateStep := []
  inject : List InjectStep := []

/-- What preparing hands to each creation: the number of points and their parent paths. -/
structure Batch where
  count : Nat
  parentPaths : List String

namespace Script

/-- Runs the preparing steps over every context of a batch. -/
def prepareWith (own : String) (contexts : List Context) :
    List PrepareStep → Except ResolveError Batch
  | [] => .ok ⟨contexts.length, contexts.map (·.parentPath)⟩
  | .raise r :: _ => .error (r.toError own)
  | .virtualValues f :: rest => do
    let _ ← contexts.mapM (·.equalityValuesOnVirtualField f)
    prepareWith own contexts rest
  | .parentValues f :: rest => do
    let _ ← contexts.mapM (·.equalityValuesOnParentField f)
    prepareWith own contexts rest

/-- An integer value. -/
def count (n : Nat) : Value := .int (Int64.ofNat n)

/-- The map describing a batch and the point of a context. -/
def batchValue (c : Context) (b : Batch) : Value :=
  .map [("count", count b.count), ("depth", count c.container.depth),
    ("indices", .list (c.container.indices.map count)),
    ("prefixes", .list (b.parentPaths.map .string))]

/-- What one action produces at a context. -/
def act (own : String) (c : Context) (b : Batch) : Action → Except ResolveError (List Predicate)
  | .raise r => .error (r.toError own)
  | .each t => .ok (c.predicates.map (·.withField (c.parentFieldPath t)))
  | .eachRaw t => .ok (c.predicates.map (·.withField t))
  | .onVirtual f t => .ok ((c.predicatesOnVirtualField f).map (·.withField (c.parentFieldPath t)))
  | .virtualIn f t => do
    let vs ← c.equalityValuesOnVirtualField f
    pure [.equalsAny (c.parentFieldPath t) vs]
  | .onParent f t => .ok ((c.predicatesOnParentField f).map (·.withField (c.parentFieldPath t)))
  | .parentIn f t => do
    let vs ← c.equalityValuesOnParentField f
    pure [.equalsAny (c.parentFieldPath t) vs]
  | .virtualPath f t => .ok [.equals (c.parentFieldPath t) (.string (c.virtualFieldPath f))]
  | .emit p relative => .ok [if relative then p.withField (c.parentFieldPath p.field) else p]
  | .batch t => .ok [.equals (c.parentFieldPath t) (batchValue c b)]

/-- Runs the creating steps at a context, collecting what they produce in order. -/
def createWith (own : String) (c : Context) (b : Batch) :
    List CreateStep → Except ResolveError (List Predicate)
  | [] => .ok []
  | s :: rest =>
    let skipped := match s.onlyAt with
      | some p => p != c.parentPath
      | none => false
    if skipped then createWith own c b rest
    else do
      let ps ← act own c b s.action
      let more ← createWith own c b rest
      pure (ps ++ more)

/-- Runs the attaching steps over the parents; a raise stops with the parents as they stand. -/
def injectWith (own : String) : List InjectStep → List Entity → List Entity × Option ResolveError
  | [], parents => (parents, none)
  | .raise r :: _, parents => (parents, some (r.toError own))
  | .set v :: rest, parents => injectWith own rest (parents.map (·.setComputed own v))
  | .copy f :: rest, parents =>
    injectWith own rest (parents.map fun e => e.setComputed own ((e.field? f).getD .null))
  | .lookup table d :: rest, parents =>
    injectWith own rest (parents.map fun e => e.setComputed own ((KeyMap.get? e.id table).getD d))
  | .count :: rest, parents =>
    injectWith own rest (parents.map (·.setComputed own (count parents.length)))

/-- The resolver a script describes. -/
def toResolver (s : Script) : Resolver :=
  .ofPhases s.name s.fields (fun contexts => prepareWith s.name contexts s.prepare)
    (fun c b => createWith s.name c b s.create) (injectWith s.name s.inject)

end Script

end FilterResolution.Scripting
