import FilterResolution.Virtual.Container

/-! # Locating a container and reading its predicates

A container path is followed in two ways. `locate` reads the first position in the filter list
and each later one among the children of the group selected before, carrying that group's
operator; `predicatesAt` moves uniformly from a list of children to the children of the group
selected there, and reads the predicates standing where it stops. Both loops are the recursion
`containerAt` in disguise, and `containerAt` finds a container exactly when `Reaches` holds:
every position selects an existing child that is a group. So the two walks succeed on the same
paths, and the predicates read are those of the container located. Appending through a path with
`updateAt`, as the resolution writes its replacements, changes exactly that container too.
-/

namespace FilterResolution.Virtual

open FilterResolution.Filter

/-- `Reaches c is d`: from the container `c` (an operator with its children), each position of
`is` selects an existing child that is a group, and `d` is the group the last position selects
(`c` itself when there is none). -/
inductive Reaches : Operator × List Node → List Nat → Operator × List Node → Prop where
  | here (c : Operator × List Node) : Reaches c [] c
  | down {c d : Operator × List Node} {i : Nat} {rest : List Nat} {op : Operator}
      {cs : List Node} :
      c.2[i]? = some (.group op cs) → Reaches (op, cs) rest d → Reaches c (i :: rest) d

theorem reaches_nil_iff {c d : Operator × List Node} : Reaches c [] d ↔ d = c := by
  constructor
  · rintro ⟨⟩
    rfl
  · rintro rfl
    exact .here _

theorem reaches_cons_iff {c d : Operator × List Node} {i : Nat} {rest : List Nat} :
    Reaches c (i :: rest) d ↔
      ∃ op cs, c.2[i]? = some (.group op cs) ∧ Reaches (op, cs) rest d := by
  constructor
  · rintro (_ | ⟨hi, hrest⟩)
    exact ⟨_, _, hi, hrest⟩
  · rintro ⟨op, cs, hi, hrest⟩
    exact .down hi hrest

/-- One position of a path: `containerAt` goes on from the group the position selects. -/
theorem containerAt_cons (op : Operator) (nodes : List Node) (i : Nat) (rest : List Nat) :
    containerAt op nodes (i :: rest) =
      (groupAt nodes i).bind fun c => containerAt c.1 c.2 rest := by
  simp only [containerAt, groupAt]
  split <;> rfl

/-- `containerAt` finds a container exactly where the positions reach it. -/
theorem containerAt_eq_some_iff {d : Operator × List Node} (is : List Nat) :
    ∀ (op : Operator) (nodes : List Node),
      containerAt op nodes is = some d ↔ Reaches (op, nodes) is d := by
  induction is with
  | nil =>
    intro op nodes
    rw [reaches_nil_iff, containerAt, Option.some.injEq, eq_comm]
  | cons i rest ih =>
    intro op nodes
    rw [reaches_cons_iff]
    simp only [containerAt]
    split
    · rename_i op' cs hi
      rw [ih op' cs]
      constructor
      · intro h
        exact ⟨op', cs, hi, h⟩
      · rintro ⟨op'', cs', hi', h⟩
        simp only [hi, Option.some.injEq, Node.group.injEq] at hi'
        obtain ⟨rfl, rfl⟩ := hi'
        exact h
    · rename_i hi
      simp only [reduceCtorEq, false_iff, not_exists, not_and]
      intro op' cs hi'
      exact absurd hi' (hi op' cs)

/-- The loop of `locate` over the later positions, started at a group, is `containerAt` from
that group. -/
theorem foldlM_groupAt (rest : List Nat) :
    ∀ c : Operator × List Node,
      rest.foldlM (fun group index => groupAt group.2 index) c = containerAt c.1 c.2 rest := by
  induction rest with
  | nil =>
    intro c
    rfl
  | cons i rest ih =>
    intro c
    rw [List.foldlM_cons, containerAt_cons]
    cases groupAt c.2 i with
    | none => rfl
    | some g => exact ih g

/-- The loop of `predicatesAt` passes through the children of the groups `containerAt` passes,
whatever operator it starts from. -/
theorem foldlM_children (is : List Nat) :
    ∀ (op : Operator) (nodes : List Node),
      is.foldlM (fun children index => (groupAt children index).map (·.2)) nodes =
        (containerAt op nodes is).map (·.2) := by
  induction is with
  | nil =>
    intro op nodes
    rfl
  | cons i rest ih =>
    intro op nodes
    rw [List.foldlM_cons, containerAt_cons]
    cases groupAt nodes i with
    | none => rfl
    | some g => exact ih g.1 g.2

theorem locate_eq_containerAt (filters : List Node) (p : ContainerPath) :
    locate filters p = containerAt .and filters p.indices := by
  obtain ⟨_ | ⟨first, rest⟩⟩ := p
  · rfl
  · show (groupAt filters first).bind _ = _
    rw [containerAt_cons]
    cases groupAt filters first with
    | none => rfl
    | some g => exact foldlM_groupAt rest g

/-- The predicates read at a path are those standing directly in the container located there. -/
theorem predicatesAt_eq_map_locate (filters : List Node) (p : ContainerPath) :
    predicatesAt filters p = (locate filters p).map fun c => Node.directPredicates c.2 := by
  rw [locate_eq_containerAt]
  unfold predicatesAt
  rw [foldlM_children p.indices .and filters]
  cases containerAt .and filters p.indices <;> rfl

/-- Changing the children at positions succeeds exactly where `containerAt` finds a container,
and afterwards `containerAt` finds that container with its children changed. -/
theorem containerAt_updateChildren (f : List Node → List Node) (is : List Nat) :
    ∀ (op : Operator) (nodes : List Node),
      (updateChildren f is nodes).bind (containerAt op · is) =
        (containerAt op nodes is).map fun c => (c.1, f c.2) := by
  induction is with
  | nil =>
    intro op nodes
    rfl
  | cons i rest ih =>
    intro op nodes
    simp only [updateChildren, containerAt]
    split
    · rename_i op' cs hi
      have hlt : i < nodes.length := (List.getElem?_eq_some_iff.1 hi).1
      -- the group changed in place is the one the next positions start from
      rw [Option.bind_map]
      simp only [Function.comp_def, List.getElem?_set_self hlt]
      exact ih op' cs
    · rfl

/-- Appending through a path (`updateAt`, as the resolution writes replacements) changes the
container `locate` finds there and fails exactly where `locate` does. -/
theorem locate_updateAt (filters : List Node) (p : ContainerPath) (f : List Node → List Node) :
    (updateAt filters p f).bind (locate · p) = (locate filters p).map fun c => (c.1, f c.2) := by
  simp only [locate_eq_containerAt]
  exact containerAt_updateChildren f p.indices .and filters

/-- Locating a container and reading its predicates agree on every path: both succeed exactly
when each position selects an existing child that is a group; `locate` then gives the group
the last position selects (the filter list under `and` for the empty path), and `predicatesAt`
the predicates standing directly in it, in order. -/
theorem locate_predicatesAt_agree (filters : List Node) (p : ContainerPath) :
    ((locate filters p).isSome ↔ (predicatesAt filters p).isSome) ∧
    ((predicatesAt filters p).isSome ↔ ∃ c, Reaches (.and, filters) p.indices c) ∧
    (∀ c, locate filters p = some c ↔ Reaches (.and, filters) p.indices c) ∧
    predicatesAt filters p = (locate filters p).map fun c => Node.directPredicates c.2 := by
  have hloc : ∀ c, locate filters p = some c ↔ Reaches (.and, filters) p.indices c := by
    intro c
    rw [locate_eq_containerAt, containerAt_eq_some_iff]
  have hpred := predicatesAt_eq_map_locate filters p
  refine ⟨by rw [hpred, Option.isSome_map], ?_, hloc, hpred⟩
  rw [hpred, Option.isSome_map, Option.isSome_iff_exists]
  simp only [hloc]

end FilterResolution.Virtual
