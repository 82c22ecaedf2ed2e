import FilterResolution.Virtual.Registry

/-!
Matching filter paths against the registry. The first name of a path that is a registered
association is the match; exactly one name, an allowed field of that association, must
follow it. The names before the match form the parent path, cut out of the path by byte
offset: the scan counts the bytes of the names it passes, each with the dot after it. A path
naming no registered association is an ordinary field.
-/

namespace FilterResolution.Virtual

open FilterResolution.Filter

/-- A filter path through a virtual association. -/
structure VirtualField where
  /-- The names before the association, joined by dots; empty at the top. -/
  parentPath : String
  association : String
  field : String
  deriving DecidableEq, Repr

/-- The text of `s` before byte `n`, as the slice `s[..n]` reads it. The slice exists only when
byte `n` of `s` starts a character or is the end of `s`. -/
def textBefore (s : String) (n : Nat) : String := String.Pos.Raw.extract s 0 ⟨n⟩

/-- Scans the names of a path for the first registered association. Gives the bytes taken by
the names before it, each with the dot after it, the association's entry, and the names after
it. -/
def firstRegistered (reg : Registry) (consumed : Nat) :
    List String → Option (Nat × Entry × List String)
  | [] => none
  | name :: rest =>
    match reg.get? name with
    | none => firstRegistered reg (consumed + name.utf8ByteSize + pathSeparator.utf8Size) rest
    | some entry => some (consumed, entry, rest)

/-- The virtual association a filter path goes through, if any. -/
def VirtualField.parse (reg : Registry) (path : String) :
    Except ResolveError (Option VirtualField) :=
  match firstRegistered reg 0 (splitPath path) with
  | none => .ok none
  | some (consumed, entry, rest) =>
    match rest with
    | [field] =>
      if entry.allows field then
        -- the parent path ends before the dot that follows the names passed
        let parentPath :=
          if consumed = 0 then "" else textBefore path (consumed - pathSeparator.utf8Size)
        .ok (some ⟨parentPath, entry.name, field⟩)
      else .error (.invalidFilterField field entry.name)
    | _ => .error (.nestedFilters path)

end FilterResolution.Virtual
