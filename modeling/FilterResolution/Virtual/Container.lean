import FilterResolution.Filter.Node

/-!
Containers of a filter tree: the top-level list, or the children of a group reached by
following child positions from the top (each position must hold a group). A container path
is written `root` followed by `/i` for each position.
-/

namespace FilterResolution.Virtual

open FilterResolution.Filter

/-- The positions leading from the top-level list to a container. -/
structure ContainerPath where
  indices : List Nat := []
  deriving DecidableEq, Repr, Inhabited

namespace ContainerPath

/-- The top-level list. -/
def root : ContainerPath := {}

/-- The container of the group at position `i` of this one. -/
def child (p : ContainerPath) (i : Nat) : ContainerPath := ⟨p.indices ++ [i]⟩

/-- How many groups down the container lies. -/
def depth (p : ContainerPath) : Nat := p.indices.length

/-- Whether this is the top-level list. -/
def isRoot (p : ContainerPath) : Bool := p.indices.isEmpty

/-- `root` followed by `/i` for each position. -/
def render (p : ContainerPath) : String :=
  p.indices.foldl (fun s i => s ++ "/" ++ toString i) "root"

end ContainerPath

/-- The operator and children of the container at `indices` below the list `nodes` joined by
`op`, when every position holds a group. -/
def containerAt (op : Operator) (nodes : List Node) : List Nat → Option (Operator × List Node)
  | [] => some (op, nodes)
  | i :: rest =>
    match nodes[i]? with
    | some (.group op' children) => containerAt op' children rest
    | _ => none

/-- The group at position `i` of a list of children, with its operator and children; `none`
when the position is out of range or holds a predicate. -/
def groupAt (nodes : List Node) (i : Nat) : Option (Operator × List Node) :=
  match nodes[i]? with
  | some (.group op children) => some (op, children)
  | _ => none

/-- The container a path leads to in a filter list, with its operator (`and` for the
top-level list): the first position selects a group of the list, each later one a group among
the children of the group selected before. -/
def locate (filters : List Node) (p : ContainerPath) : Option (Operator × List Node) :=
  match p.indices with
  | [] => some (.and, filters)
  | first :: rest => do
    let group ← groupAt filters first
    rest.foldlM (fun group index => groupAt group.2 index) group

/-- The predicates standing directly in the container a path leads to: each position moves from
a list of children to the children of the group it selects there. -/
def predicatesAt (filters : List Node) (p : ContainerPath) : Option (List Predicate) := do
  let children ← p.indices.foldlM (fun children index => (groupAt children index).map (·.2)) filters
  pure (Node.directPredicates children)

/-- Changes the children of the container at `indices`, when every position holds a group. -/
def updateChildren (f : List Node → List Node) : List Nat → List Node → Option (List Node)
  | [], nodes => some (f nodes)
  | i :: rest, nodes =>
    match nodes[i]? with
    | some (.group op children) =>
      (updateChildren f rest children).map fun children => nodes.set i (.group op children)
    | _ => none

/-- Changes the children of the container a path leads to. -/
def updateAt (filters : List Node) (p : ContainerPath) (f : List Node → List Node) :
    Option (List Node) :=
  updateChildren f p.indices filters

end FilterResolution.Virtual
