import FilterResolution.Virtual.Resolver
import FilterResolution.Virtual.Config
import FilterResolution.Virtual.Event
import FilterResolution.Data.KeyMap

/-!
The registry of resolvers, built once from resolvers in registration order. A name must be
non-empty and free of the path separator, and so must each allowed field. A name registered
twice is refused, or under the first-wins policy the later resolver is dropped with a warning.
A failed build keeps the warnings written before it. Names and allowed fields are kept in
ascending order.
-/

namespace FilterResolution.Virtual

open FilterResolution.Filter FilterResolution.Text

/-- A registered resolver with its allowed fields in ascending order, each once. -/
structure Entry where
  name : String
  allowed : List String
  resolver : Resolver

/-- Inserts a name into an ascending list of distinct names. -/
def insertName (name : String) : List String → List String
  | [] => [name]
  | n :: rest =>
    if name < n then name :: n :: rest
    else if name = n then n :: rest
    else n :: insertName name rest

/-- The ascending list of distinct names among `names`. -/
def sortNames (names : List String) : List String := names.foldl (fun s n => insertName n s) []

example : sortNames ["isActive", "code", "code"] = ["code", "isActive"] := by decide

namespace Entry

/-- Whether a field may follow the association name. -/
def allows (e : Entry) (field : String) : Bool := e.allowed.contains field

/-- The diagnostic form of an entry. -/
def diagnostic (e : Entry) : String :=
  "ResolverEntry \x7b name: " ++ quote e.name ++ ", allowed: \x7b" ++
    ", ".intercalate (e.allowed.map quote) ++ "\x7d, resolver: " ++ e.resolver.diagnostic ++ " \x7d"

end Entry

/-- Registered resolvers by association name. -/
structure Registry where
  entries : List (String × Entry) := []

namespace Registry

/-- The registry without resolvers: every predicate is ordinary. -/
def empty : Registry := {}

/-- The entry of an association. -/
def get? (r : Registry) (name : String) : Option Entry := KeyMap.get? name r.entries

/-- Whether an association is registered. -/
def contains (r : Registry) (name : String) : Bool := KeyMap.contains name r.entries

/-- The registered association names in ascending order. -/
def names (r : Registry) : List String := r.entries.map (·.1)

/-- The number of registered associations. -/
def size (r : Registry) : Nat := r.entries.length

/-- Whether no association is registered. -/
def isEmpty (r : Registry) : Bool := r.entries.isEmpty

/-- The diagnostic form of a list of names. -/
def namesDiagnostic (names : List String) : String :=
  "[" ++ ", ".intercalate (names.map quote) ++ "]"

/-- Whether a name may be an association or field name. -/
def validName (name : String) : Bool := !name.isEmpty && !name.contains pathSeparator

/-- The first allowed field of a resolver that is not a valid name. -/
def invalidField? (r : Resolver) : Option String := r.fields.find? (!validName ·)

/-- The entry a resolver is registered with. -/
def entryOf (r : Resolver) : Entry := ⟨r.association, sortNames r.fields, r⟩

/-- The warning for a resolver dropped as a duplicate. -/
def duplicateNote (name : String) : Note :=
  { level := .warn, origin := .registry
    message := "Ignoring duplicate virtual association resolver"
    details := [("association", .text name)] }

/-- The note of a registry built, naming its associations. -/
def builtNote (reg : Registry) : Note :=
  { level := .info, origin := .registry
    message := "Virtual association registry built"
    details := [("associations", .text (namesDiagnostic reg.names))] }

/-- Adds resolvers in order to a registry, noting each dropped duplicate. The notes written up to
a failure are kept with it. -/
def addAll (policy : DuplicatePolicy) :
    List Resolver → Registry → List Note → Except RegistryError Registry × List Note
  | [], reg, notes => (.ok reg, notes)
  | r :: rest, reg, notes =>
    if !validName r.association then (.error (.invalidAssociationName r.association), notes)
    else match invalidField? r with
      | some field => (.error (.invalidFieldName r.association field), notes)
      | none =>
        if reg.contains r.association then
          match policy with
          | .reject => (.error (.duplicateAssociation r.association), notes)
          | .firstWins => addAll policy rest reg (notes ++ [duplicateNote r.association])
        else addAll policy rest ⟨KeyMap.insert r.association (entryOf r) reg.entries⟩ notes

/-- Builds a registry from resolvers in registration order. Besides warnings for dropped
duplicates, a successful build notes the registered names. -/
def build (policy : DuplicatePolicy) (resolvers : List Resolver) :
    Except RegistryError Registry × List Note :=
  match addAll policy resolvers {} [] with
  | (.error e, notes) => (.error e, notes)
  | (.ok reg, notes) => (.ok reg, notes ++ [builtNote reg])

end Registry

end FilterResolution.Virtual
