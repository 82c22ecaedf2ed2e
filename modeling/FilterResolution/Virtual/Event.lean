import FilterResolution.Virtual.Context
import FilterResolution.Filter.Entity

/-!
What a run records: diagnostic notes with a level, the part of the engine that wrote them,
a message and named details; and every call made to a resolver, with what it was given.
A run is a computation that may fail with a resolution error and keeps its record either way.
-/

namespace FilterResolution.Virtual

open FilterResolution.Filter

/-- How important a note is. -/
inductive Level where
  | trace
  | debug
  | info
  | warn
  | error
  deriving DecidableEq, Repr

/-- The part that wrote a note. -/
inductive Origin where
  | registry
  | engine
  | plan
  | loader
  deriving DecidableEq, Repr

/-- A named detail of a note: text, or a count. -/
inductive Detail where
  | text (s : String)
  | count (n : Nat)
  deriving DecidableEq, Repr

/-- A diagnostic note. -/
structure Note where
  level : Level
  origin : Origin
  message : String
  details : List (String × Detail) := []
  deriving Repr

/-- One entry of a run's record. -/
inductive Event where
  | note (n : Note)
  /-- A batch was prepared for an association with these contexts. -/
  | preprocessed (association : String) (contexts : List Context)
  /-- Replacements were asked for one context. -/
  | created (association : String) (context : Context)
  /-- Computed values were asked for these parents. -/
  | injected (association : String) (parents : List String)

/-- A computation that records events and may fail with a resolution error. -/
abbrev Run := ExceptT ResolveError (StateM (List Event))

/-- Records an event. -/
def record {m : Type → Type} [Monad m] [MonadStateOf (List Event) m] (e : Event) : m Unit :=
  modify fun (es : List Event) => es ++ [e]

/-- Records a note. -/
def note {m : Type → Type} [Monad m] [MonadStateOf (List Event) m] (level : Level)
    (origin : Origin) (message : String) (details : List (String × Detail) := []) : m Unit :=
  record (.note { level, origin, message, details })

end FilterResolution.Virtual
