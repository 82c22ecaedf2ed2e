import FilterResolution.Virtual.FieldPath

/-!
A check of path matching on arbitrary bytes. Text of at most 1024 bytes is matched against a
registry of `bar` and `stock`, each allowing `id` and `active`; a match must be made of pieces
of the path: the path starts with the parent path and ends with `association.field`. Bytes
that are not text, and longer text, are not checked.
-/

namespace FilterResolution.Probe

open FilterResolution.Virtual

/-- A resolver that allows `id` and `active` and produces nothing. -/
def stub (name : String) : Resolver where
  association := name
  fields := ["id", "active"]
  preprocess _ := .ok fun _ => .ok []
  inject parents := (parents, none)

/-- The registry of `bar` and `stock`. -/
def stubRegistry : Except RegistryError Registry := (Registry.build .reject [stub "bar", stub "stock"]).1

/-- Whether a match of `path` is made of pieces of it. -/
def pathMatchHolds (reg : Registry) (path : String) : Bool :=
  match VirtualField.parse reg path with
  | .ok (some f) => path.startsWith f.parentPath && path.endsWith (f.association ++ "." ++ f.field)
  | _ => true

/-- The check on the bytes of one input. -/
def fieldPathHolds (data : ByteArray) : Bool :=
  match String.fromUTF8? data, stubRegistry with
  | some path, .ok reg => data.size > 1024 || pathMatchHolds reg path
  | some _, .error _ => false
  | none, _ => true

end FilterResolution.Probe
