/-!
Maps with string keys kept as lists of entries in ascending key order, one entry per key.
Keys compare by code point, which is also the order of their UTF-8 bytes. Building a map from
entries in writing order keeps the last entry written for each key.
-/

universe u

namespace FilterResolution.KeyMap

/-- Sets `key` to `v`: an entry with that key is replaced in place, otherwise the new entry
goes before the first larger key. -/
def insert {α : Type u} (key : String) (v : α) : List (String × α) → List (String × α)
  | [] => [(key, v)]
  | (k, w) :: rest =>
    if key < k then (key, v) :: (k, w) :: rest
    else if key = k then (key, v) :: rest
    else (k, w) :: insert key v rest

/-- The value stored under `key`. -/
def get? {α : Type u} (key : String) : List (String × α) → Option α
  | [] => none
  | (k, v) :: rest => if key = k then some v else get? key rest

/-- The map of entries given in writing order; a later entry for a key replaces an earlier one. -/
def ofList {α : Type u} (entries : List (String × α)) : List (String × α) :=
  entries.foldl (fun m (k, v) => insert k v m) []

/-- Whether `key` has an entry. -/
def contains {α : Type u} (key : String) (m : List (String × α)) : Bool := (get? key m).isSome

example : ofList [("b", 1), ("a", 2), ("b", 3)] = [("a", 2), ("b", 3)] := by decide

end FilterResolution.KeyMap
