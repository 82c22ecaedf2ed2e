import FilterResolution.Virtual.Context

/-!
What a resolution did, read like a query plan: one step per injection point with the virtual
predicates removed and the real predicates put in their place, and one line per resolver
batch. Predicates are kept as their text.
-/

namespace FilterResolution.Virtual

open FilterResolution.Filter FilterResolution.Json

/-- One applied injection point. -/
structure InjectionSummary where
  /-- The container, as `root/1/0`. -/
  container : String
  parentPath : String
  association : String
  /-- The virtual predicates removed. -/
  matched : List String
  /-- The real predicates appended in their place. -/
  replacements : List String
  deriving DecidableEq, Repr

/-- The summary of a point and the replacements made for it. -/
def InjectionSummary.ofPoint (p : Point) (replacements : List Predicate) : InjectionSummary :=
  ⟨p.container.render, p.parentPath, p.association, p.predicates.map Predicate.render,
    replacements.map Predicate.render⟩

/-- One resolver's batch: a single preprocessing over its points. -/
structure BatchSummary where
  association : String
  points : Nat
  deriving DecidableEq, Repr

/-- What a resolution did. -/
structure Report where
  /-- Whether any virtual predicate was replaced. -/
  applied : Bool := false
  injections : List InjectionSummary := []
  batches : List BatchSummary := []
  deriving DecidableEq, Repr

namespace Report

/-- The report of a resolution that changed nothing. -/
def unchanged : Report := {}

/-- How many virtual predicates were removed. -/
def matchedCount (r : Report) : Nat := (r.injections.map (·.matched.length)).foldr (· + ·) 0

/-- The text of the report, one line each, each line ended by a newline. -/
def render (r : Report) : String :=
  if !r.applied then "No virtual association filters\n"
  else
    let batchLine (b : BatchSummary) : String :=
      "Resolver " ++ b.association ++ ": " ++ toString b.points ++
        " injection point(s), preprocessed once\n"
    let step (i : Nat) (s : InjectionSummary) : String :=
      "  Step " ++ toString (i + 1) ++ ": " ++ s.association ++ " at " ++ s.container ++
        " prefix " ++ (if s.parentPath.isEmpty then "(root)" else s.parentPath) ++ "\n" ++
        "    removed:  " ++ ", ".intercalate s.matched ++ "\n" ++
        "    injected: " ++ ", ".intercalate s.replacements ++ "\n"
    "Virtual Association Rewrite\n===========================\n" ++
      String.join (r.batches.map batchLine) ++
      String.join (r.injections.mapIdx step)

/-- The JSON form of the report. -/
def toDoc (r : Report) : Doc :=
  let strings (xs : List String) : Doc := .array (xs.map .string)
  let injection (s : InjectionSummary) : Doc :=
    .object [("association", .string s.association), ("container", .string s.container),
      ("matched", strings s.matched), ("prefix", .string s.parentPath),
      ("replacements", strings s.replacements)]
  let batch (b : BatchSummary) : Doc :=
    .object [("association", .string b.association),
      ("injection_points", .number (.unsigned b.points.toUInt64))]
  .object [("batches", .array (r.batches.map batch)),
    ("injections", .array (r.injections.map injection)), ("rewritten", .bool r.applied)]

end Report

end FilterResolution.Virtual
