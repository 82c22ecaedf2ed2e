import FilterResolution.Text.Quote

/-!
Errors of registering and resolving. Each resolution error has a stable code, a message, and
a flag telling whether the message may be shown to users; the payload of an internal error
carries a generic message instead. A resolver failure keeps its cause's message.
-/

namespace FilterResolution.Virtual

open FilterResolution.Text

/-- Why resolving a specification failed. -/
inductive ResolveError where
  | filtersOnVirtualAssociation (name : String)
  | nestedFilters (path : String)
  | invalidFilterField (field association : String)
  | unsupportedPredicateType (field kind : String)
  | filterTreeTooDeep (max : Nat)
  | resolverFailed (association cause : String)
  | invariantViolation (detail : String)
  deriving DecidableEq, Repr, Inhabited

namespace ResolveError

/-- The message of the error. -/
def message : ResolveError → String
  | .filtersOnVirtualAssociation name =>
    "filters directly on virtual association \"" ++ name ++
      "\" are not supported; filter through its field path instead"
  | .nestedFilters path => "nested filters on virtual associations are not supported: " ++ path
  | .invalidFilterField field association =>
    "\"" ++ field ++ "\" is not a filterable field of virtual association \"" ++ association ++ "\""
  | .unsupportedPredicateType field kind =>
    "unsupported predicate type \"" ++ kind ++ "\" on \"" ++ field ++
      "\"; only equals and equals_any are accepted here"
  | .filterTreeTooDeep max => "filter tree exceeds the maximum group depth of " ++ toString max
  | .resolverFailed association cause => "resolver for \"" ++ association ++ "\" failed: " ++ cause
  | .invariantViolation detail => "internal invariant violation: " ++ detail

/-- The stable code of the error. -/
def code : ResolveError → String
  | .filtersOnVirtualAssociation _ => "FILTERS_ON_VIRTUAL_ASSOCIATION_NOT_SUPPORTED"
  | .nestedFilters _ => "NESTED_FILTERS_NOT_SUPPORTED"
  | .invalidFilterField .. => "INVALID_FILTER_FIELD"
  | .unsupportedPredicateType .. => "UNSUPPORTED_PREDICATE_TYPE"
  | .filterTreeTooDeep _ => "FILTER_TREE_TOO_DEEP"
  | .resolverFailed .. => "RESOLVER_FAILURE"
  | .invariantViolation _ => "INTERNAL_INVARIANT_VIOLATION"

/-- Whether the message may be shown to users: all but resolver failures and internal errors. -/
def isUserFacing : ResolveError → Bool
  | .resolverFailed .. => false
  | .invariantViolation _ => false
  | _ => true

/-- The message of the payload handed to users. -/
def payloadMessage (e : ResolveError) : String :=
  if e.isUserFacing then e.message else "internal error while rewriting filters"

/-- The message of the underlying cause: a resolver's own message. -/
def cause? : ResolveError → Option String
  | .resolverFailed _ cause => some cause
  | _ => none

/-- The diagnostic form: the kind with its data, strings quoted. -/
def diagnostic : ResolveError → String
  | .filtersOnVirtualAssociation name =>
    "FiltersOnVirtualAssociationNotSupported(" ++ quote name ++ ")"
  | .nestedFilters path => "NestedFiltersNotSupported(" ++ quote path ++ ")"
  | .invalidFilterField field association =>
    "InvalidFilterField \x7b field: " ++ quote field ++ ", association: " ++ quote association ++ " \x7d"
  | .unsupportedPredicateType field kind =>
    "UnsupportedPredicateType \x7b field: " ++ quote field ++ ", kind: " ++ quote kind ++ " \x7d"
  | .filterTreeTooDeep max => "FilterTreeTooDeep \x7b max: " ++ toString max ++ " \x7d"
  | .resolverFailed association cause =>
    "Resolver \x7b association: " ++ quote association ++ ", source: " ++ quote cause ++ " \x7d"
  | .invariantViolation detail => "InternalInvariantViolation(" ++ quote detail ++ ")"

end ResolveError

/-- Why building a registry failed. -/
inductive RegistryError where
  | duplicateAssociation (name : String)
  | invalidAssociationName (name : String)
  | invalidFieldName (association field : String)
  deriving DecidableEq, Repr

namespace RegistryError

/-- The message of the error. -/
def message : RegistryError → String
  | .duplicateAssociation name => "virtual association \"" ++ name ++ "\" is registered more than once"
  | .invalidAssociationName name => "invalid virtual association name: \"" ++ name ++ "\""
  | .invalidFieldName association field =>
    "invalid virtual field name \"" ++ field ++ "\" on association \"" ++ association ++ "\""

/-- The name of the kind of error. -/
def kind : RegistryError → String
  | .duplicateAssociation _ => "DuplicateAssociation"
  | .invalidAssociationName _ => "InvalidAssociationName"
  | .invalidFieldName .. => "InvalidFieldName"

/-- The diagnostic form: the kind with its data, strings quoted. -/
def diagnostic : RegistryError → String
  | .duplicateAssociation name => "DuplicateAssociation(" ++ quote name ++ ")"
  | .invalidAssociationName name => "InvalidAssociationName(" ++ quote name ++ ")"
  | .invalidFieldName association field =>
    "InvalidFieldName \x7b association: " ++ quote association ++ ", field: " ++ quote field ++ " \x7d"

end RegistryError

end FilterResolution.Virtual
