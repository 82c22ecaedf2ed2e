import FilterResolution.Virtual.Run
import FilterResolution.Proofs.ContainerPaths

/-! # The filters left once virtual predicates are taken out

A predicate is virtual when a name of its field path is a registered association. `settled`
takes the virtual predicates out of every container, keeps groups (with their operators) and
ordinary predicates in their order, and appends to each container what an `Extra` gives it. A
container of the result is reached from the top through positions among the kept nodes;
`keptContainer` follows such positions in the original tree. Appending at a reachable container
changes nothing but what the `Extra` gives there, and the predicates standing in a container are
its ordinary predicates followed by what was appended to it.
-/

namespace FilterResolution.Virtual

open FilterResolution.Filter

/-- Whether a field path goes through a registered association: one of its names is one. -/
def isVirtual (reg : Registry) (field : String) : Bool := (splitPath field).any reg.contains

/-- Whether a node stays in its container once virtual predicates are taken out. -/
def stays (reg : Registry) : Node → Bool
  | .pred p => !isVirtual reg p.field
  | .group .. => true

/-- The predicates standing directly among nodes that are not virtual. -/
def ordinary (reg : Registry) (nodes : List Node) : List Predicate :=
  Node.directPredicates (nodes.filter (stays reg))

/-- Predicates to append, by container. -/
abbrev Extra := ContainerPath → List Predicate

/-- `extra` with `rs` appended at the container `q`. -/
def Extra.push (extra : Extra) (q : ContainerPath) (rs : List Predicate) : Extra :=
  fun q' => if q' = q then extra q ++ rs else extra q'

mutual
/-- The nodes of the container at `path`, from kept position `i` on, with virtual predicates
taken out and each group's children settled. -/
def settleNodes (reg : Registry) (extra : Extra) (path : ContainerPath) :
    Nat → List Node → List Node
  | _, [] => []
  | i, n :: rest =>
    match settleNode reg extra path i n with
    | some n => n :: settleNodes reg extra path (i + 1) rest
    | none => settleNodes reg extra path i rest

/-- A node at kept position `i` of the container at `path`: a virtual predicate goes, a group
keeps its operator and has its children settled, with what `extra` gives its container. -/
def settleNode (reg : Registry) (extra : Extra) (path : ContainerPath) (i : Nat) :
    Node → Option Node
  | .pred p => if isVirtual reg p.field then none else some (.pred p)
  | .group op cs =>
    some (.group op (settleNodes reg extra (path.child i) 0 cs ++ (extra (path.child i)).map .pred))
end

/-- The children of the container at `path` once settled: its nodes without virtual
predicates, then what `extra` gives it. -/
def settled (reg : Registry) (extra : Extra) (path : ContainerPath) (nodes : List Node) :
    List Node :=
  settleNodes reg extra path 0 nodes ++ (extra path).map .pred

/-- A kept node as it stands once settled, `q` being the container a group opens. -/
def settleKept (reg : Registry) (extra : Extra) (q : ContainerPath) : Node → Node
  | .pred p => .pred p
  | .group op cs => .group op (settled reg extra q cs)

/-- The children, in the original tree, of the container reached through positions among kept
nodes; `none` when a position holds no group. -/
def keptContainer (reg : Registry) : List Node → List Nat → Option (List Node)
  | nodes, [] => some nodes
  | nodes, j :: rest =>
    match (nodes.filter (stays reg))[j]? with
    | some (.group _ cs) => keptContainer reg cs rest
    | _ => none

/-- Nothing appended anywhere. -/
def Extra.empty : Extra := fun _ => []

/-- No predicate among the nodes, at any depth, is virtual. -/
def NoVirtual (reg : Registry) (nodes : List Node) : Prop :=
  ∀ p ∈ Node.predicatesAll nodes, isVirtual reg p.field = false

variable {reg : Registry}

@[simp] theorem Extra.empty_apply (q : ContainerPath) : Extra.empty q = [] := rfl

theorem NoVirtual.cons_iff {n : Node} {rest : List Node} :
    NoVirtual reg (n :: rest) ↔
      (∀ p ∈ Node.predicates n, isVirtual reg p.field = false) ∧ NoVirtual reg rest := by
  simp only [NoVirtual, Node.predicatesAll, List.forall_mem_append]

theorem Extra.push_ne {extra : Extra} {q q' : ContainerPath} (rs : List Predicate) (h : q' ≠ q) :
    extra.push q rs q' = extra q' := if_neg h

@[simp] theorem Extra.push_self (extra : Extra) (q : ContainerPath) (rs : List Predicate) :
    extra.push q rs q = extra q ++ rs := if_pos rfl

theorem ContainerPath.ext_indices {p q : ContainerPath} (h : p.indices = q.indices) : p = q := by
  cases p; cases q; simp_all

@[simp] theorem ContainerPath.child_indices (p : ContainerPath) (i : Nat) :
    (p.child i).indices = p.indices ++ [i] := rfl

theorem settleNode_group (extra : Extra) (path : ContainerPath) (i : Nat) (op : Operator)
    (cs : List Node) :
    settleNode reg extra path i (.group op cs) =
      some (.group op (settled reg extra (path.child i) cs)) :=
  rfl

/-- Settling is a map over the kept nodes, each group opening the container at its kept
position. -/
theorem settleNodes_eq_mapIdx (extra : Extra) (path : ContainerPath) (nodes : List Node) :
    ∀ i, settleNodes reg extra path i nodes =
      (nodes.filter (stays reg)).mapIdx fun j n => settleKept reg extra (path.child (i + j)) n := by
  induction nodes with
  | nil => intro i; rfl
  | cons n rest ih =>
    intro i
    cases n with
    | pred p =>
      by_cases hv : isVirtual reg p.field
      · simp [settleNodes, settleNode, stays, hv, ih]
      · simp only [settleNodes, settleNode, hv, stays, List.filter_cons, Bool.not_false,
          if_true, Bool.false_eq_true, if_false, List.mapIdx_cons, ih]
        simp [settleKept, Nat.add_assoc, Nat.add_comm 1]
    | group op cs =>
      simp only [settleNodes, settleNode_group, stays, List.filter_cons, if_true,
        List.mapIdx_cons, ih]
      simp [settleKept, Nat.add_assoc, Nat.add_comm 1]

@[simp] theorem length_settleNodes (extra : Extra) (path : ContainerPath) (i : Nat)
    (nodes : List Node) :
    (settleNodes reg extra path i nodes).length = (nodes.filter (stays reg)).length := by
  rw [settleNodes_eq_mapIdx, List.length_mapIdx]

theorem getElem?_settleNodes (extra : Extra) (path : ContainerPath) (nodes : List Node) (j : Nat) :
    (settleNodes reg extra path 0 nodes)[j]? =
      (nodes.filter (stays reg))[j]?.map (settleKept reg extra (path.child j)) := by
  rw [settleNodes_eq_mapIdx, List.getElem?_mapIdx, Nat.zero_add]

/-- Settled groups keep their kinds, so the predicates standing among settled nodes are the
ordinary ones. -/
theorem directPredicates_settleNodes (extra : Extra) (path : ContainerPath) (nodes : List Node) :
    ∀ i, Node.directPredicates (settleNodes reg extra path i nodes) = ordinary reg nodes := by
  simp only [ordinary, Node.directPredicates]
  induction nodes with
  | nil => intro i; rfl
  | cons n rest ih =>
    intro i
    cases n with
    | pred p =>
      by_cases hv : isVirtual reg p.field
      · simpa [settleNodes, settleNode, stays, hv] using ih i
      · simpa [settleNodes, settleNode, stays, hv, Node.asPredicate?] using ih (i + 1)
    | group op cs =>
      simpa [settleNodes, settleNode_group, stays, List.filter_cons, List.filterMap_cons,
        Node.asPredicate?]
        using ih (i + 1)

/-! ## Settling reads `extra` only below its container -/

mutual
theorem settleNodes_congr {x y : Extra} {path : ContainerPath}
    (h : ∀ j rest, x ⟨path.indices ++ j :: rest⟩ = y ⟨path.indices ++ j :: rest⟩) :
    ∀ (i : Nat) (nodes : List Node), settleNodes reg x path i nodes = settleNodes reg y path i nodes
  | _, [] => rfl
  | i, n :: rest => by
    simp only [settleNodes, settleNode_congr h i n, settleNodes_congr h (i + 1) rest,
      settleNodes_congr h i rest]

theorem settleNode_congr {x y : Extra} {path : ContainerPath}
    (h : ∀ j rest, x ⟨path.indices ++ j :: rest⟩ = y ⟨path.indices ++ j :: rest⟩) :
    ∀ (i : Nat) (n : Node), settleNode reg x path i n = settleNode reg y path i n
  | _, .pred _ => rfl
  | i, .group op cs => by
    -- the group opens `path.child i`: `extra` is read there and below it
    have hbelow : ∀ j rest, x ⟨(path.child i).indices ++ j :: rest⟩ =
        y ⟨(path.child i).indices ++ j :: rest⟩ := fun j rest => by
      simpa using h i (j :: rest)
    have hat : x (path.child i) = y (path.child i) := h i []
    rw [settleNode_group, settleNode_group, settled, settled, settleNodes_congr hbelow 0 cs, hat]
end

theorem settled_congr {x y : Extra} {path : ContainerPath}
    (h : ∀ rest, x ⟨path.indices ++ rest⟩ = y ⟨path.indices ++ rest⟩) (nodes : List Node) :
    settled reg x path nodes = settled reg y path nodes := by
  have hat : x path = y path := by
    have h0 := h []
    rwa [List.append_nil] at h0
  rw [settled, settled, settleNodes_congr (fun j rest => h (j :: rest)) 0 nodes, hat]

theorem settleKept_congr {x y : Extra} {q : ContainerPath}
    (h : ∀ rest, x ⟨q.indices ++ rest⟩ = y ⟨q.indices ++ rest⟩) (n : Node) :
    settleKept reg x q n = settleKept reg y q n := by
  cases n with
  | pred p => rfl
  | group op cs => simp only [settleKept, settled_congr h cs]

/-- Appending at `q` leaves every container off the way to `q` as it was. -/
theorem push_below_ne {x : Extra} {q path : ContainerPath} {j k : Nat} {rest : List Nat}
    (rs : List Predicate) (hq : q.indices = path.indices ++ j :: rest) (hk : j ≠ k) :
    ∀ rest', x.push q rs ⟨(path.child k).indices ++ rest'⟩ =
      x ⟨(path.child k).indices ++ rest'⟩ := by
  intro rest'
  apply Extra.push_ne rs
  intro he
  have hi := congrArg ContainerPath.indices he
  simp only [ContainerPath.child_indices, hq, List.append_assoc, List.singleton_append,
    List.append_cancel_left_eq, List.cons.injEq] at hi
  exact hk hi.1.symm

/-! ## Reachable containers -/

/-- A group at kept position `j` stands at position `j` of the settled container. -/
theorem getElem?_settled {x : Extra} {path : ContainerPath} {nodes cs : List Node} {j : Nat}
    {op : Operator} (hj : (nodes.filter (stays reg))[j]? = some (.group op cs)) :
    (settled reg x path nodes)[j]? = some (.group op (settled reg x (path.child j) cs)) := by
  have hlt : j < (settleNodes reg x path 0 nodes).length := by
    rw [length_settleNodes]
    exact (List.getElem?_eq_some_iff.1 hj).1
  rw [settled, List.getElem?_append_left hlt, getElem?_settleNodes, hj]
  rfl

theorem keptContainer_cons {nodes cs : List Node} {j : Nat} {rest : List Nat}
    (h : keptContainer reg nodes (j :: rest) = some cs) :
    ∃ op cs', (nodes.filter (stays reg))[j]? = some (.group op cs') ∧
      keptContainer reg cs' rest = some cs := by
  simp only [keptContainer] at h
  split at h
  · rename_i op cs' hj
    exact ⟨op, cs', hj, h⟩
  · cases h

/-- The container at a reachable position of the settled tree is the settled original one. -/
theorem containerAt_settled (x : Extra) (q : ContainerPath) :
    ∀ (rel : List Nat) (op : Operator) (path : ContainerPath) (nodes cs : List Node),
      q.indices = path.indices ++ rel → keptContainer reg nodes rel = some cs →
      ∃ op', containerAt op (settled reg x path nodes) rel = some (op', settled reg x q cs)
  | [], op, path, nodes, cs, hq, h => by
    have hp : q = path := ContainerPath.ext_indices (by simpa using hq)
    simp only [keptContainer, Option.some.injEq] at h
    subst hp h
    exact ⟨op, rfl⟩
  | j :: rest, _, path, nodes, cs, hq, h => by
    obtain ⟨op, cs', hj, hrest⟩ := keptContainer_cons h
    have ih := containerAt_settled x q rest op (path.child j) cs' cs (by simp [hq]) hrest
    simpa only [containerAt, getElem?_settled hj] using ih

/-- Appending at a reachable container of the settled tree settles it with the appended
predicates. -/
theorem updateChildren_settled (rs : List Predicate) (x : Extra) (q : ContainerPath) :
    ∀ (rel : List Nat) (path : ContainerPath) (nodes cs : List Node),
      q.indices = path.indices ++ rel → keptContainer reg nodes rel = some cs →
      updateChildren (· ++ rs.map .pred) rel (settled reg x path nodes) =
        some (settled reg (x.push q rs) path nodes)
  | [], path, nodes, _, hq, _ => by
    have hp : q = path := ContainerPath.ext_indices (by simpa using hq)
    subst hp
    -- below `q` nothing changes; at `q` the predicates are appended
    have hbelow : ∀ j rest, x.push q rs ⟨q.indices ++ j :: rest⟩ = x ⟨q.indices ++ j :: rest⟩ := by
      intro j rest
      apply Extra.push_ne rs
      intro he
      have hl := congrArg (fun p : ContainerPath => p.indices.length) he
      simp at hl
    simp only [updateChildren, settled, settleNodes_congr hbelow, Extra.push_self, List.map_append,
      List.append_assoc]
  | j :: rest, path, nodes, cs, hq, h => by
    obtain ⟨op, cs', hj, hrest⟩ := keptContainer_cons h
    have ih := updateChildren_settled rs x q rest (path.child j) cs' cs (by simp [hq]) hrest
    have hlt : j < (settleNodes reg x path 0 nodes).length := by
      rw [length_settleNodes]
      exact (List.getElem?_eq_some_iff.1 hj).1
    have hne : path ≠ q := by
      intro he
      have hl := congrArg (fun p : ContainerPath => p.indices.length) he
      simp [hq] at hl
    have hl : settled reg x path nodes = settleNodes reg x path 0 nodes ++ (x path).map .pred := rfl
    have hr : settled reg (x.push q rs) path nodes =
        settleNodes reg (x.push q rs) path 0 nodes ++ (x.push q rs path).map .pred := rfl
    simp only [updateChildren, getElem?_settled hj, ih, Option.map_some, Option.some.injEq]
    rw [hl, hr, List.set_append_left _ _ hlt, Extra.push_ne rs hne]
    congr 1
    apply List.ext_getElem?
    intro k
    rw [List.getElem?_set, getElem?_settleNodes, getElem?_settleNodes]
    by_cases hk : j = k
    · subst hk
      rw [if_pos rfl, if_pos hlt, hj]
      rfl
    · rw [if_neg hk]
      have hfun : settleKept reg x (path.child k) = settleKept reg (x.push q rs) (path.child k) :=
        funext fun n => (settleKept_congr (push_below_ne rs hq hk) n).symm
      rw [hfun]

theorem directPredicates_map_pred (ps : List Predicate) :
    Node.directPredicates (ps.map .pred) = ps := by
  induction ps with
  | nil => rfl
  | cons p ps ih => simpa [Node.directPredicates, Node.asPredicate?] using ih

/-- The predicates standing in a reachable container of the settled filters: its ordinary
predicates, then what was appended to it. -/
theorem predicatesAt_settled (x : Extra) {filters cs : List Node} {q : ContainerPath}
    (h : keptContainer reg filters q.indices = some cs) :
    predicatesAt (settled reg x .root filters) q = some (ordinary reg cs ++ x q) := by
  obtain ⟨op, hc⟩ := containerAt_settled x q q.indices .and .root filters cs (by rfl) h
  have hd : Node.directPredicates (settled reg x q cs) = ordinary reg cs ++ x q := by
    rw [settled, Node.directPredicates, List.filterMap_append, ← Node.directPredicates,
      ← Node.directPredicates, directPredicates_settleNodes, directPredicates_map_pred]
  rw [predicatesAt_eq_map_locate, locate_eq_containerAt, hc]
  simp only [Option.map_some, hd]

theorem updateAt_settled (rs : List Predicate) (x : Extra) {filters cs : List Node}
    {q : ContainerPath} (h : keptContainer reg filters q.indices = some cs) :
    updateAt (settled reg x .root filters) q (· ++ rs.map .pred) =
      some (settled reg (x.push q rs) .root filters) :=
  updateChildren_settled rs x q q.indices .root filters cs (by rfl) h

/-! ## Filters with nothing virtual -/

mutual
/-- Without virtual predicates and with nothing appended, settling changes nothing. -/
theorem settleNodes_of_noVirtual (path : ContainerPath) :
    ∀ (i : Nat) (nodes : List Node), NoVirtual reg nodes →
      settleNodes reg Extra.empty path i nodes = nodes
  | _, [], _ => rfl
  | i, n :: rest, h => by
    obtain ⟨hn, hr⟩ := NoVirtual.cons_iff.1 h
    simp only [settleNodes, settleNode_of_noVirtual path i n hn,
      settleNodes_of_noVirtual path (i + 1) rest hr]

theorem settleNode_of_noVirtual (path : ContainerPath) :
    ∀ (i : Nat) (n : Node), (∀ p ∈ Node.predicates n, isVirtual reg p.field = false) →
      settleNode reg Extra.empty path i n = some n
  | _, .pred p, h => by simp [settleNode, h p (by simp [Node.predicates])]
  | i, .group op cs, h => by
    rw [settleNode_group, settled, settleNodes_of_noVirtual (path.child i) 0 cs h]
    simp
end

theorem settled_of_noVirtual (path : ContainerPath) {nodes : List Node} (h : NoVirtual reg nodes) :
    settled reg Extra.empty path nodes = nodes := by
  rw [settled, settleNodes_of_noVirtual path 0 nodes h]
  simp

end FilterResolution.Virtual
