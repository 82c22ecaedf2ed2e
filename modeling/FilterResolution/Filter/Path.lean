/-!
Field paths: names joined by dots, from the root entity through associations to a field.
-/

namespace FilterResolution.Filter

/-- The character between the names of a path. -/
def pathSeparator : Char := '.'

/-- `name` under `base`: the name itself when `base` is empty, else `base.name`. -/
def joinPath (base name : String) : String :=
  if base.isEmpty then name else base ++ "." ++ name

/-- The names of a path, split at every dot; the empty path has one empty name. -/
def splitPath (path : String) : List String :=
  (path.toList.splitOn pathSeparator).map String.ofList

example : joinPath "" "active" = "active" := by decide
example : joinPath "order.customer" "active" = "order.customer.active" := by decide
example : splitPath ".bar.id" = ["", "bar", "id"] := by decide

end FilterResolution.Filter
