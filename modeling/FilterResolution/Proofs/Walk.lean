import FilterResolution.Proofs.Outcome
import FilterResolution.Proofs.Settled
import FilterResolution.Proofs.Registry
import FilterResolution.Proofs.PathMatch

/-! # Taking virtual predicates out

The first phase of resolving walks the filter tree in pre-order. It stops at the first node
that is a group nested deeper than the limit or a predicate whose path does not match
(`nodesFault`); otherwise it gives the settled filters with nothing appended and the injection
points in post-order: those of a group's inner groups, then the group's own, one per parent path
and association in the order first found (`pointsOf`). It calls no resolver. Every point's
container is reachable in the settled filters, and, in a built registry, its association is
registered.
-/

namespace FilterResolution.Virtual

open FilterResolution.Filter

variable {reg : Registry}

/-- A path that matches names a virtual field exactly when it is virtual. -/
theorem parse_ok_isSome {field : String} {r : Option VirtualField}
    (h : VirtualField.parse reg field = .ok r) : r.isSome = isVirtual reg field := by
  rw [isVirtual, ← firstRegistered_isSome (splitPath field) 0]
  cases r with
  | none => rw [parse_ok_none h]; rfl
  | some vf =>
    obtain ⟨before, name, e, hsplit, hbefore, hname, -⟩ := parse_eq_ok_some h
    rw [hsplit, firstRegistered_append hbefore hname]
    rfl

/-- In a built registry, the association a path matches is registered under its name. -/
theorem parse_ok_registered (hs : reg.Sound) {field : String} {vf : VirtualField}
    (h : VirtualField.parse reg field = .ok (some vf)) : ∃ e, reg.get? vf.association = some e := by
  obtain ⟨before, name, e, -, -, hname, -, hvf⟩ := parse_eq_ok_some h
  exact ⟨e, hvf ▸ hs.get?_name hname⟩

/-- The virtual field a path names, when it matches one. -/
def virtualField? (reg : Registry) (field : String) : Option VirtualField :=
  match VirtualField.parse reg field with
  | .ok r => r
  | .error _ => none

mutual
/-- The first fault among nodes at depth `depth`, in pre-order: a group nested deeper than
`limit`, or a predicate whose path does not match. -/
def nodesFault (reg : Registry) (limit depth : Nat) : List Node → Option ResolveError
  | [] => none
  | n :: rest =>
    match nodeFault reg limit depth n with
    | some e => some e
    | none => nodesFault reg limit depth rest

/-- The first fault of a node in a container at depth `depth`, itself first. -/
def nodeFault (reg : Registry) (limit depth : Nat) : Node → Option ResolveError
  | .pred p =>
    match VirtualField.parse reg p.field with
    | .error e => some e
    | .ok _ => none
  | .group _ cs =>
    if limit < depth + 1 then some (.filterTreeTooDeep limit)
    else nodesFault reg limit (depth + 1) cs
end

/-- Adds the virtual predicates standing among nodes to buckets, in order, keyed by parent path
and association. -/
def Buckets.collect (reg : Registry) (b : Buckets) : List Node → Buckets
  | [] => b
  | .pred p :: rest =>
    match virtualField? reg p.field with
    | some vf => Buckets.collect reg (b.add (vf.parentPath, vf.association) p) rest
    | none => Buckets.collect reg b rest
  | .group .. :: rest => Buckets.collect reg b rest

mutual
/-- The injection points of the groups among the nodes of the container at `path`, from kept
position `i` on: for each group in order, those of its inner groups, then its own. -/
def groupPoints (reg : Registry) (path : ContainerPath) : Nat → List Node → List Point
  | _, [] => []
  | i, n :: rest =>
    nodePoints reg path i n ++ groupPoints reg path (if stays reg n then i + 1 else i) rest

/-- The injection points of a node at kept position `i`: none for a predicate. -/
def nodePoints (reg : Registry) (path : ContainerPath) (i : Nat) : Node → List Point
  | .pred _ => []
  | .group _ cs =>
    groupPoints reg (path.child i) 0 cs ++ Buckets.points (path.child i) (Buckets.collect reg [] cs)
end

/-- The injection points of the filters in post-order: a group's before its container's. -/
def pointsOf (reg : Registry) (filters : List Node) : List Point :=
  groupPoints reg .root 0 filters ++ Buckets.points .root (Buckets.collect reg [] filters)

theorem settleNode_eq (extra : Extra) (path : ContainerPath) (i : Nat) (n : Node) :
    settleNode reg extra path i n =
      if stays reg n then some (settleKept reg extra (path.child i) n) else none := by
  cases n with
  | pred p => by_cases hv : isVirtual reg p.field <;> simp [settleNode, stays, settleKept, hv]
  | group op cs => rfl

theorem settleNodes_cons (extra : Extra) (path : ContainerPath) (i : Nat) (n : Node)
    (rest : List Node) :
    settleNodes reg extra path i (n :: rest) =
      if stays reg n then
        settleKept reg extra (path.child i) n :: settleNodes reg extra path (i + 1) rest
      else settleNodes reg extra path i rest := by
  rw [settleNodes, settleNode_eq]
  by_cases hs : stays reg n <;> simp [hs]

theorem Buckets.collect_cons (b : Buckets) (n : Node) (rest : List Node) :
    Buckets.collect reg b (n :: rest) = Buckets.collect reg (Buckets.collect reg b [n]) rest := by
  cases n with
  | pred p =>
    simp only [Buckets.collect]
    split <;> rfl
  | group op cs => rfl

@[simp] theorem ContainerPath.depth_child (p : ContainerPath) (i : Nat) :
    (p.child i).depth = p.depth + 1 := by
  simp [ContainerPath.depth, ContainerPath.child]

/-! ## The walk -/

mutual
/-- Walking the nodes of a container fails with their first fault in pre-order; otherwise it
adds their settled form to the nodes kept, their virtual predicates to the buckets and their
groups' points to the points. No resolver is called. -/
theorem stripNodes_makes (limit : Nat) (path : ContainerPath) :
    ∀ (nodes kept : List Node) (buckets : Buckets) (points : List Point),
      Run.Makes (stripNodes reg limit path nodes (kept, buckets, points))
        (match nodesFault reg limit path.depth nodes with
         | some e => .error e
         | none => .ok (kept ++ settleNodes reg Extra.empty path kept.length nodes,
             Buckets.collect reg buckets nodes,
             points ++ groupPoints reg path kept.length nodes)) []
  | [], kept, buckets, points => by
    simpa [stripNodes, nodesFault, settleNodes, Buckets.collect, groupPoints] using
      Run.makes_pure (kept, buckets, points)
  | n :: rest, kept, buckets, points => by
    have h₁ := stripNode_makes limit path n kept buckets points
    unfold stripNodes
    cases hf : nodeFault reg limit path.depth n with
    | some e =>
      rw [hf] at h₁
      simp only [nodesFault, hf]
      exact h₁.bind_error
    | none =>
      rw [hf] at h₁
      have h := h₁.bind_ok (stripNodes_makes limit path rest
        (if stays reg n then kept ++ [settleKept reg Extra.empty (path.child kept.length) n]
          else kept)
        (Buckets.collect reg buckets [n]) (points ++ nodePoints reg path kept.length n))
      simp only [nodesFault, hf]
      -- the node's own part, then what the rest of the container gives
      cases hr : nodesFault reg limit path.depth rest with
      | some e => simpa [hr] using h
      | none =>
        by_cases hs : stays reg n
        · simpa [hr, hs, settleNodes_cons, ← Buckets.collect_cons, groupPoints] using h
        · simpa [hr, hs, settleNodes_cons, ← Buckets.collect_cons, groupPoints] using h

/-- Walking one node: a predicate whose path does not match fails; a virtual one goes to its
bucket; a group deeper than the limit fails, else its children are walked as a container of
their own. -/
theorem stripNode_makes (limit : Nat) (path : ContainerPath) :
    ∀ (n : Node) (kept : List Node) (buckets : Buckets) (points : List Point),
      Run.Makes (stripNode reg limit path n (kept, buckets, points))
        (match nodeFault reg limit path.depth n with
         | some e => .error e
         | none =>
           .ok ((if stays reg n then kept ++ [settleKept reg Extra.empty (path.child kept.length) n]
               else kept),
             Buckets.collect reg buckets [n], points ++ nodePoints reg path kept.length n)) []
  | .pred p, kept, buckets, points => by
    unfold stripNode
    cases hparse : VirtualField.parse reg p.field with
    | error e =>
      simp only [nodeFault, hparse]
      exact (Run.makes_ofExcept _).bind_error
    | ok r =>
      have hv := parse_ok_isSome hparse
      cases r with
      | none =>
        have hs : stays reg (.pred p) = true := by simp [stays, ← hv]
        simp only [nodeFault, hparse, hs, if_true, settleKept, Buckets.collect, virtualField?,
          nodePoints, List.append_nil]
        exact (Run.makes_ofExcept _).bind_ok (Run.makes_pure _)
      | some vf =>
        have hs : stays reg (.pred p) = false := by simp [stays, ← hv]
        simp only [nodeFault, hparse, hs, Bool.false_eq_true, if_false, Buckets.collect,
          virtualField?, nodePoints, List.append_nil]
        exact (Run.makes_ofExcept _).bind_ok ((Run.makes_note _ _ _ _).bind_ok (Run.makes_pure _))
  | .group op cs, kept, buckets, points => by
    unfold stripNode
    by_cases hd : limit < path.depth + 1
    · simp only [nodeFault, hd, if_true, ContainerPath.depth_child]
      exact (Run.makes_throw _).bind_error
    · have h := stripNodes_makes limit (path.child kept.length) cs [] [] []
      simp only [nodeFault, hd, if_false, ContainerPath.depth_child] at h ⊢
      cases hf : nodesFault reg limit (path.depth + 1) cs with
      | some e =>
        rw [hf] at h
        exact h.map_error
      | none =>
        rw [hf] at h
        simpa [stays, settleKept, settled, Buckets.collect, nodePoints] using h.map_ok
end

/-- The first phase of resolving fails with the first fault of the filters in pre-order, or
gives the filters settled with nothing appended and the injection points in post-order. -/
theorem collectPoints_makes (limit : Nat) (filters : List Node) :
    Run.Makes (collectPoints reg limit filters)
      (match nodesFault reg limit 0 filters with
       | some e => .error e
       | none => .ok (settled reg Extra.empty .root filters, pointsOf reg filters)) [] := by
  have h : Run.Makes (stripNodes reg limit .root filters ([], [], [])) _ [] :=
    stripNodes_makes limit .root filters [] [] []
  have hd : ContainerPath.root.depth = 0 := rfl
  unfold collectPoints
  cases hf : nodesFault reg limit 0 filters with
  | some e =>
    rw [hd, hf] at h
    exact h.map_error
  | none =>
    rw [hd, hf] at h
    simpa [settled, pointsOf] using h.map_ok

/-! ## Where the points stand -/

theorem Buckets.mem_points {path : ContainerPath} {b : Buckets} {p : Point}
    (h : p ∈ Buckets.points path b) : p.container = path := by
  obtain ⟨⟨⟨pp, a⟩, ps⟩, _, rfl⟩ := List.mem_map.1 h
  rfl

theorem keptContainer_cons_pos {n : Node} {rest : List Node} {k : Nat} {rel : List Nat}
    (hs : stays reg n = true) :
    keptContainer reg (n :: rest) ((k + 1) :: rel) = keptContainer reg rest (k :: rel) := by
  simp [keptContainer, hs]

theorem keptContainer_cons_neg {n : Node} {rest : List Node} {k : Nat} {rel : List Nat}
    (hs : stays reg n = false) :
    keptContainer reg (n :: rest) (k :: rel) = keptContainer reg rest (k :: rel) := by
  simp [keptContainer, hs]

theorem keptContainer_group (op : Operator) (cs rest : List Node) (rel : List Nat) :
    keptContainer reg (.group op cs :: rest) (0 :: rel) = keptContainer reg cs rel := by
  simp [keptContainer, List.filter_cons, stays]

mutual
/-- A point of the groups among nodes is a bucket of a container reached from one of them. -/
theorem mem_groupPoints (path : ContainerPath) :
    ∀ (i : Nat) (nodes : List Node) (p : Point), p ∈ groupPoints reg path i nodes →
      ∃ k rel cs, p.container.indices = path.indices ++ (i + k) :: rel ∧
        keptContainer reg nodes (k :: rel) = some cs ∧
        p ∈ Buckets.points p.container (Buckets.collect reg [] cs)
  | _, [], _, h => by simp [groupPoints] at h
  | i, n :: rest, p, h => by
    rcases List.mem_append.1 h with hn | hr
    · obtain ⟨op, cs', rfl, rel, cs, hp, hc, hb⟩ := mem_nodePoints path i n p hn
      exact ⟨0, rel, cs, by simpa using hp, by rw [keptContainer_group]; exact hc, hb⟩
    · obtain ⟨k, rel, cs, hp, hc, hb⟩ := mem_groupPoints path _ rest p hr
      cases hs : stays reg n
      · rw [hs] at hp
        exact ⟨k, rel, cs, by simpa using hp, by rw [keptContainer_cons_neg hs]; exact hc, hb⟩
      · rw [hs] at hp
        refine ⟨k + 1, rel, cs, ?_, by rw [keptContainer_cons_pos hs]; exact hc, hb⟩
        simpa [Nat.add_assoc, Nat.add_comm 1] using hp

/-- A point of a node is a bucket of a container reached from that node, which is a group. -/
theorem mem_nodePoints (path : ContainerPath) :
    ∀ (i : Nat) (n : Node) (p : Point), p ∈ nodePoints reg path i n →
      ∃ op cs', n = .group op cs' ∧ ∃ rel cs, p.container.indices = path.indices ++ i :: rel ∧
        keptContainer reg cs' rel = some cs ∧
        p ∈ Buckets.points p.container (Buckets.collect reg [] cs)
  | _, .pred _, _, h => by simp [nodePoints] at h
  | i, .group op cs', p, h => by
    refine ⟨op, cs', rfl, ?_⟩
    rcases List.mem_append.1 h with hg | hb
    · obtain ⟨k, rel, cs, hp, hc, hb⟩ := mem_groupPoints (path.child i) 0 cs' p hg
      exact ⟨k :: rel, cs, by simpa using hp, hc, hb⟩
    · have hp := Buckets.mem_points hb
      refine ⟨[], cs', by simp [hp], rfl, ?_⟩
      rw [hp]
      exact hb
end

/-- Every injection point is a bucket of a container reachable in the settled filters. -/
theorem mem_pointsOf {filters : List Node} {p : Point} (h : p ∈ pointsOf reg filters) :
    ∃ cs, keptContainer reg filters p.container.indices = some cs ∧
      p ∈ Buckets.points p.container (Buckets.collect reg [] cs) := by
  rcases List.mem_append.1 h with hg | hb
  · obtain ⟨k, rel, cs, hp, hc, hb⟩ := mem_groupPoints .root 0 filters p hg
    refine ⟨cs, ?_, hb⟩
    rw [hp, show ContainerPath.root.indices = [] from rfl, List.nil_append, Nat.zero_add]
    exact hc
  · have hp := Buckets.mem_points hb
    refine ⟨filters, by rw [hp]; rfl, ?_⟩
    rw [hp]
    exact hb

/-! ## Points and virtual predicates

A filter list has injection points exactly when one of its predicates is virtual, provided its
walk has no fault: a virtual predicate always lands in a bucket, and a bucket is a point. -/

theorem virtualField?_of_not_virtual {field : String} (h : isVirtual reg field = false) :
    virtualField? reg field = none := by
  unfold virtualField?
  split
  · rename_i r hr
    have hv := parse_ok_isSome hr
    rw [h] at hv
    cases r with
    | none => rfl
    | some _ => cases hv
  · rfl

theorem Buckets.collect_of_noVirtual :
    ∀ (b : Buckets) (nodes : List Node), NoVirtual reg nodes → Buckets.collect reg b nodes = b
  | _, [], _ => rfl
  | b, .pred p :: rest, h => by
    obtain ⟨hp, hr⟩ := NoVirtual.cons_iff.1 h
    simp only [Buckets.collect, virtualField?_of_not_virtual (hp p (by simp [Node.predicates]))]
    exact Buckets.collect_of_noVirtual b rest hr
  | b, .group .. :: rest, h => Buckets.collect_of_noVirtual b rest (NoVirtual.cons_iff.1 h).2

mutual
theorem groupPoints_of_noVirtual (path : ContainerPath) :
    ∀ (i : Nat) (nodes : List Node), NoVirtual reg nodes → groupPoints reg path i nodes = []
  | _, [], _ => rfl
  | i, n :: rest, h => by
    obtain ⟨hn, hr⟩ := NoVirtual.cons_iff.1 h
    simp only [groupPoints, nodePoints_of_noVirtual path i n hn,
      groupPoints_of_noVirtual path _ rest hr, List.append_nil]

theorem nodePoints_of_noVirtual (path : ContainerPath) :
    ∀ (i : Nat) (n : Node), (∀ p ∈ Node.predicates n, isVirtual reg p.field = false) →
      nodePoints reg path i n = []
  | _, .pred _, _ => rfl
  | i, .group op cs, h => by
    simp only [nodePoints, groupPoints_of_noVirtual (path.child i) 0 cs h,
      Buckets.collect_of_noVirtual [] cs h]
    rfl
end

/-- Filters with nothing virtual have no injection points. -/
theorem pointsOf_of_noVirtual {filters : List Node} (h : NoVirtual reg filters) :
    pointsOf reg filters = [] := by
  simp only [pointsOf, groupPoints_of_noVirtual .root 0 filters h,
    Buckets.collect_of_noVirtual [] filters h]
  rfl

theorem Buckets.add_ne_nil (key : String × String) (p : Predicate) (b : Buckets) :
    b.add key p ≠ [] := by
  cases b with
  | nil => simp [Buckets.add]
  | cons kb rest =>
    simp only [Buckets.add]
    split <;> simp

theorem Buckets.collect_ne_nil :
    ∀ (b : Buckets) (nodes : List Node), b ≠ [] → Buckets.collect reg b nodes ≠ []
  | _, [], hb => hb
  | b, .pred p :: rest, hb => by
    simp only [Buckets.collect]
    split
    · exact Buckets.collect_ne_nil _ rest (Buckets.add_ne_nil _ _ _)
    · exact Buckets.collect_ne_nil b rest hb
  | b, .group .. :: rest, hb => Buckets.collect_ne_nil b rest hb

mutual
theorem noVirtual_of_groupPoints (limit : Nat) (path : ContainerPath) :
    ∀ (depth i : Nat) (nodes : List Node), nodesFault reg limit depth nodes = none →
      groupPoints reg path i nodes = [] → Buckets.collect reg [] nodes = [] → NoVirtual reg nodes
  | _, _, [], _, _, _ => by simp [NoVirtual, Node.predicatesAll]
  | depth, i, n :: rest, hf, hg, hb => by
    simp only [nodesFault] at hf
    split at hf
    · cases hf
    · rename_i hn
      simp only [groupPoints, List.append_eq_nil_iff] at hg
      -- the buckets of the rest start from those of `n`, so both are empty
      rw [Buckets.collect_cons] at hb
      have hb' : Buckets.collect reg [] [n] = [] :=
        Classical.byContradiction fun hne => Buckets.collect_ne_nil _ rest hne hb
      rw [hb'] at hb
      exact NoVirtual.cons_iff.2 ⟨noVirtual_of_nodePoints limit path depth i n hn hg.1 hb',
        noVirtual_of_groupPoints limit path depth _ rest hf hg.2 hb⟩

theorem noVirtual_of_nodePoints (limit : Nat) (path : ContainerPath) :
    ∀ (depth i : Nat) (n : Node), nodeFault reg limit depth n = none →
      nodePoints reg path i n = [] → Buckets.collect reg [] [n] = [] →
      ∀ p ∈ Node.predicates n, isVirtual reg p.field = false
  | _, _, .pred p, hf, _, hb => by
    simp only [nodeFault] at hf
    split at hf
    · cases hf
    · rename_i r hparse
      have hv := parse_ok_isSome hparse
      -- a predicate that names a virtual field would have filled a bucket
      have hr : r = none := by
        cases r with
        | none => rfl
        | some vf =>
          simp only [Buckets.collect, virtualField?, hparse] at hb
          exact absurd hb (Buckets.add_ne_nil _ _ _)
      simp [Node.predicates, ← hv, hr]
  | depth, i, .group op cs, hf, hg, _ => by
    simp only [nodeFault] at hf
    split at hf
    · cases hf
    · simp only [nodePoints, List.append_eq_nil_iff, Buckets.points, List.map_eq_nil_iff] at hg
      exact noVirtual_of_groupPoints limit (path.child i) (depth + 1) 0 cs hf hg.1 hg.2
end

/-- Filters whose walk has no fault and gives no injection points have nothing virtual. -/
theorem noVirtual_of_pointsOf {limit : Nat} {filters : List Node}
    (hf : nodesFault reg limit 0 filters = none) (hp : pointsOf reg filters = []) :
    NoVirtual reg filters := by
  simp only [pointsOf, List.append_eq_nil_iff, Buckets.points, List.map_eq_nil_iff] at hp
  exact noVirtual_of_groupPoints limit .root 0 0 filters hf hp.1 hp.2

end FilterResolution.Virtual
