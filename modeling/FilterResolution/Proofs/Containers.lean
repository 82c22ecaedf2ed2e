import FilterResolution.Proofs.Resolution

/-! # Where injection points stand

A point records its container as positions among the nodes kept once virtual predicates are
taken out. Followed in the original filters through kept nodes only (`keptGroup`), the
positions reach the group whose predicates the point took; followed in the filters as the
batch phase leaves them after any appends, they reach that same group settled, and locating,
reading and appending at the path all find it. So the phase never meets a missing container,
every batch names a registered association, and each batch holds at least one point of the plan.
-/

namespace FilterResolution.Virtual

open FilterResolution.Filter

/-- The operator and children, in the original tree, of the container reached through positions
among kept nodes, starting from the list `nodes` joined by `op`. -/
def keptGroup (reg : Registry) (op : Operator) : List Node → List Nat → Option (Operator × List Node)
  | nodes, [] => some (op, nodes)
  | nodes, j :: rest =>
    match (nodes.filter (stays reg))[j]? with
    | some (.group op' cs) => keptGroup reg op' cs rest
    | _ => none

/-- The path of `p`, in the filters settled with `x` appended, leads to the settled group `op`
over `cs`: locating it and reading its predicates find that group, and appending there settles
the filters with the appended predicates. -/
structure Locates (reg : Registry) (filters : List Node) (x : Extra) (p : Point) (op : Operator)
    (cs : List Node) : Prop where
  locate_eq : locate (settled reg x .root filters) p.container = some (op, settled reg x p.container cs)
  predicatesAt_eq : predicatesAt (settled reg x .root filters) p.container =
    some (Node.directPredicates (settled reg x p.container cs))
  updateAt_eq : ∀ rs : List Predicate,
    updateAt (settled reg x .root filters) p.container (· ++ rs.map .pred) =
      some (settled reg (x.push p.container rs) .root filters)

variable {reg : Registry}

theorem keptGroup_snd (op : Operator) :
    ∀ (nodes : List Node) (rel : List Nat),
      (keptGroup reg op nodes rel).map Prod.snd = keptContainer reg nodes rel
  | _, [] => rfl
  | nodes, j :: rest => by
    simp only [keptGroup, keptContainer]
    rcases (nodes.filter (stays reg))[j]? with _ | _ | ⟨op', cs⟩
    · rfl
    · rfl
    · exact keptGroup_snd op' cs rest

/-- The settled tree has the kept group, settled, where the kept positions lead. -/
theorem containerAt_settled_group (x : Extra) (q : ContainerPath) :
    ∀ (rel : List Nat) (op op' : Operator) (path : ContainerPath) (nodes cs : List Node),
      q.indices = path.indices ++ rel → keptGroup reg op nodes rel = some (op', cs) →
      containerAt op (settled reg x path nodes) rel = some (op', settled reg x q cs)
  | [], op, op', path, nodes, cs, hq, h => by
    have hp : q = path := ContainerPath.ext_indices (by simpa using hq)
    simp only [keptGroup, Option.some.injEq, Prod.mk.injEq] at h
    obtain ⟨rfl, rfl⟩ := h
    subst hp
    rfl
  | j :: rest, _, op', path, nodes, cs, hq, h => by
    simp only [keptGroup] at h
    split at h
    · rename_i op cs' hj
      have ih := containerAt_settled_group x q rest op op' (path.child j) cs' cs (by simp [hq]) h
      simpa only [containerAt, getElem?_settled hj] using ih
    · cases h

/-- Kept positions that reach a group in the original filters lead every settled form of the
filters to that group, settled. -/
theorem locates_of_keptGroup (x : Extra) {filters cs : List Node} {p : Point} {op : Operator}
    (h : keptGroup reg .and filters p.container.indices = some (op, cs)) :
    Locates reg filters x p op cs := by
  have hloc : locate (settled reg x .root filters) p.container =
      some (op, settled reg x p.container cs) := by
    rw [locate_eq_containerAt]
    exact containerAt_settled_group x p.container p.container.indices .and op .root filters cs
      (by rfl) h
  have hkept : keptContainer reg filters p.container.indices = some cs := by
    rw [← keptGroup_snd, h]
    rfl
  exact ⟨hloc, by rw [predicatesAt_eq_map_locate, hloc]; rfl, fun rs => updateAt_settled rs x hkept⟩

/-! ## What buckets hold -/

/-- Adding a predicate keeps a bucket or extends the bucket of its key, or opens that bucket. -/
theorem Buckets.mem_add {key : String × String} {p : Predicate} {b : Buckets}
    {e : (String × String) × List Predicate} (he : e ∈ b.add key p) :
    e ∈ b ∨ e.1 = key ∧ ∃ ps, e.2 = ps ++ [p] ∧ ((key, ps) ∈ b ∨ ps = []) := by
  induction b with
  | nil =>
    simp only [Buckets.add, List.mem_singleton] at he
    subst he
    exact .inr ⟨rfl, [], rfl, .inr rfl⟩
  | cons kb rest ih =>
    obtain ⟨k, ps⟩ := kb
    simp only [Buckets.add] at he
    split at he
    · rename_i hk
      subst hk
      rcases List.mem_cons.1 he with rfl | he
      · exact .inr ⟨rfl, ps, rfl, .inl (List.mem_cons_self ..)⟩
      · exact .inl (List.mem_cons_of_mem _ he)
    · rcases List.mem_cons.1 he with rfl | he
      · exact .inl (List.mem_cons_self ..)
      · rcases ih he with h | ⟨hk, ps', hps, hin⟩
        · exact .inl (List.mem_cons_of_mem _ h)
        · refine .inr ⟨hk, ps', hps, ?_⟩
          rcases hin with hin | hin
          · exact .inl (List.mem_cons_of_mem _ hin)
          · exact .inr hin

/-- A property that every predicate of every bucket has, with its bucket's key, and that every
virtual predicate among the nodes has, with its own key, holds of the buckets collected; and no
bucket collected is empty. -/
theorem Buckets.forall_collect (S : String × String → Predicate → Prop) :
    ∀ (b : Buckets) (nodes : List Node),
      (∀ e ∈ b, e.2 ≠ [] ∧ ∀ q ∈ e.2, S e.1 q) →
      (∀ q vf, Node.pred q ∈ nodes → virtualField? reg q.field = some vf →
        S (vf.parentPath, vf.association) q) →
      ∀ e ∈ Buckets.collect reg b nodes, e.2 ≠ [] ∧ ∀ q ∈ e.2, S e.1 q
  | _, [], hb, _ => hb
  | b, .pred p :: rest, hb, hn => by
    have hrest : ∀ q vf, Node.pred q ∈ rest → virtualField? reg q.field = some vf →
        S (vf.parentPath, vf.association) q :=
      fun q vf hq hv => hn q vf (List.mem_cons_of_mem _ hq) hv
    simp only [Buckets.collect]
    split
    · rename_i vf hvf
      refine Buckets.forall_collect S _ rest ?_ hrest
      -- the new predicate joins the bucket of its own key
      intro e he
      rcases Buckets.mem_add he with he | ⟨hk, ps, hps, hin⟩
      · exact hb e he
      · refine ⟨by simp [hps], fun q hq => ?_⟩
        rw [hps] at hq
        rcases List.mem_append.1 hq with hq | hq
        · rcases hin with hin | rfl
          · exact hk ▸ (hb _ hin).2 q hq
          · cases hq
        · rw [List.mem_singleton.1 hq, hk]
          exact hn p vf (List.mem_cons_self ..) hvf
    · exact Buckets.forall_collect S b rest hb hrest
  | b, .group .. :: rest, hb, hn =>
    Buckets.forall_collect S b rest hb fun q vf hq hv => hn q vf (List.mem_cons_of_mem _ hq) hv

/-- The predicates of a container's point stand in that container, each a virtual predicate
whose parent path and association are the point's; and there is at least one. -/
theorem Buckets.mem_points_collect {path : ContainerPath} {cs : List Node} {p : Point}
    (h : p ∈ Buckets.points path (Buckets.collect reg [] cs)) :
    p.predicates ≠ [] ∧ ∀ q ∈ p.predicates, Node.pred q ∈ cs ∧
      ∃ vf, virtualField? reg q.field = some vf ∧ vf.parentPath = p.parentPath ∧
        vf.association = p.association := by
  obtain ⟨⟨⟨pp, a⟩, ps⟩, he, rfl⟩ := List.mem_map.1 h
  have hall := Buckets.forall_collect
    (fun key q => Node.pred q ∈ cs ∧ ∃ vf, virtualField? reg q.field = some vf ∧
      (vf.parentPath, vf.association) = key)
    [] cs (by simp) (fun q vf hq hv => ⟨hq, vf, hv, rfl⟩) _ he
  refine ⟨hall.1, fun q hq => ?_⟩
  obtain ⟨hmem, vf, hvf, hkey⟩ := hall.2 q hq
  obtain ⟨hpp, ha⟩ := Prod.mk.inj hkey
  exact ⟨hmem, vf, hvf, hpp, ha⟩

theorem virtualField?_registered (hs : reg.Sound) {field : String} {vf : VirtualField}
    (h : virtualField? reg field = some vf) : (reg.get? vf.association).isSome := by
  unfold virtualField? at h
  split at h
  · rename_i r hr
    subst h
    obtain ⟨e, he⟩ := parse_ok_registered hs hr
    simp [he]
  · cases h

/-! ## Batches -/

/-- Grouping points by association never leaves a batch empty. -/
theorem batchesOf_ne_nil {points : List Point} : ∀ b ∈ batchesOf points, b.2 ≠ [] := by
  unfold batchesOf
  dsimp only
  -- a batch is opened with its first point and only grows along the fold
  refine List.foldlRecOn (motive := fun bs : List (String × List Point) => ∀ b ∈ bs, b.2 ≠ [])
    points _ (by simp) ?_
  intro bs hinv q _ b hb
  split at hb
  · obtain ⟨⟨a, qs⟩, hmem, hab⟩ := List.mem_map.1 hb
    by_cases ha : a = q.association
    · simp only [ha, beq_self_eq_true, if_true] at hab
      subst hab
      simp
    · simp only [beq_iff_eq, ha, if_false] at hab
      exact hab ▸ hinv (a, qs) hmem
  · rcases List.mem_append.1 hb with hb | hb
    · exact hinv b hb
    · simp only [List.mem_singleton] at hb
      subst hb
      simp

/-! ## The points of the walk -/

/-- The container of an injection point lies where its kept positions lead: a group of the
original filters that holds the point's predicates, which every settled form of the filters
keeps at the same path. The point's association is registered. -/
theorem mem_pointsOf_located (hs : reg.Sound) {filters : List Node} {p : Point}
    (hp : p ∈ pointsOf reg filters) :
    ∃ op cs, keptGroup reg .and filters p.container.indices = some (op, cs) ∧
      (∀ q ∈ p.predicates, Node.pred q ∈ cs) ∧ (∀ x, Locates reg filters x p op cs) ∧
      (reg.get? p.association).isSome := by
  obtain ⟨cs, hkept, hbucket⟩ := mem_pointsOf hp
  have hgroup : ((keptGroup reg .and filters p.container.indices).map Prod.snd) = some cs := by
    rw [keptGroup_snd, hkept]
  obtain ⟨⟨op, cs'⟩, hg, hcs⟩ := Option.map_eq_some_iff.1 hgroup
  simp only at hcs
  subst hcs
  obtain ⟨hne, hpreds⟩ := Buckets.mem_points_collect hbucket
  -- the association comes from the virtual field of any of the point's predicates
  obtain ⟨q, hq⟩ := List.exists_mem_of_ne_nil _ hne
  obtain ⟨-, vf, hvf, -, ha⟩ := hpreds q hq
  refine ⟨op, cs', hg, fun q hq => (hpreds q hq).1, fun x => locates_of_keptGroup x hg, ?_⟩
  rw [← ha]
  exact virtualField?_registered hs hvf

/-- The walk of a filter list leaves the filters settled with nothing appended, and every point
it registers keeps its container: the path leads, in the filters as the batch phase leaves them
after any appends, to the settled form of the group that held the point's predicates, its
positions counting only the nodes kept before. No lookup of a point's container can fail, every
batch's association is registered, and every batch holds at least one point of the walk. -/
theorem collectPoints_containers (hs : reg.Sound) {limit : Nat} {filters working : List Node}
    {points : List Point} {l l' : List Event}
    (h : (collectPoints reg limit filters).run.run l = (.ok (working, points), l')) :
    working = settled reg Extra.empty .root filters ∧
      (∀ p ∈ points, ∃ op cs, keptGroup reg .and filters p.container.indices = some (op, cs) ∧
        (∀ q ∈ p.predicates, Node.pred q ∈ cs) ∧ ∀ x, Locates reg filters x p op cs) ∧
      ∀ b ∈ batchesOf points, b.2 ≠ [] ∧ (∀ p ∈ b.2, p ∈ points ∧ p.association = b.1) ∧
        (reg.get? b.1).isSome := by
  obtain ⟨es, hg, -⟩ := @collectPoints_makes reg limit filters
  have hr := congrArg Prod.fst ((hg l).symm.trans h)
  -- a walk that succeeds had no fault and gave the settled filters and `pointsOf`
  cases hf : nodesFault reg limit 0 filters with
  | some e =>
    simp only [hf] at hr
    cases hr
  | none =>
    simp only [hf, Except.ok.injEq, Prod.mk.injEq] at hr
    obtain ⟨rfl, rfl⟩ := hr
    refine ⟨rfl, fun p hp => ?_, fun b hb => ?_⟩
    · obtain ⟨op, cs, hg, hmem, hloc, -⟩ := mem_pointsOf_located hs hp
      exact ⟨op, cs, hg, hmem, hloc⟩
    · have hne := batchesOf_ne_nil b hb
      have hmem := mem_batchesOf b hb
      obtain ⟨p, hp⟩ := List.exists_mem_of_ne_nil _ hne
      obtain ⟨hpp, ha⟩ := hmem p hp
      obtain ⟨-, -, -, -, -, hreg⟩ := mem_pointsOf_located hs hpp
      exact ⟨hne, hmem, ha ▸ hreg⟩

theorem collectPoints_containers_nested :
    Registry.Sound ⟨[("bar", ⟨"bar", ["id"], ⟨"bar", ["id"], fun _ => .ok fun _ => .ok [],
      fun ps => (ps, none)⟩⟩)]⟩ ∧
    (collectPoints ⟨[("bar", ⟨"bar", ["id"], ⟨"bar", ["id"], fun _ => .ok fun _ => .ok [],
        fun ps => (ps, none)⟩⟩)]⟩ 64
      [.pred ⟨"bar.id", .equals .null⟩,
        .group .or [.pred ⟨"name", .equals .null⟩, .pred ⟨"bar.id", .equals .null⟩]]).run.run [] =
      (.ok ([.group .or [.pred ⟨"name", .equals .null⟩]],
        [⟨⟨[0]⟩, "", "bar", [⟨"bar.id", .equals .null⟩]⟩,
          ⟨⟨[]⟩, "", "bar", [⟨"bar.id", .equals .null⟩]⟩]),
        [.note ⟨.trace, .engine, "Matched virtual association predicate",
          [("field", .text "bar.id"), ("association", .text "bar")]⟩,
         .note ⟨.trace, .engine, "Matched virtual association predicate",
          [("field", .text "bar.id"), ("association", .text "bar")]⟩]) ∧
    let reg : Registry := ⟨[("bar", ⟨"bar", ["id"], ⟨"bar", ["id"], fun _ => .ok fun _ => .ok [],
      fun ps => (ps, none)⟩⟩)]⟩
    let filters : List Node := [.pred ⟨"bar.id", .equals .null⟩,
      .group .or [.pred ⟨"name", .equals .null⟩, .pred ⟨"bar.id", .equals .null⟩]]
    let points : List Point := [⟨⟨[0]⟩, "", "bar", [⟨"bar.id", .equals .null⟩]⟩,
      ⟨⟨[]⟩, "", "bar", [⟨"bar.id", .equals .null⟩]⟩]
    [.group .or [.pred ⟨"name", .equals .null⟩]] = settled reg Extra.empty .root filters ∧
      (∀ p ∈ points, ∃ op cs, keptGroup reg .and filters p.container.indices = some (op, cs) ∧
        (∀ q ∈ p.predicates, Node.pred q ∈ cs) ∧ ∀ x, Locates reg filters x p op cs) ∧
      ∀ b ∈ batchesOf points, b.2 ≠ [] ∧ (∀ p ∈ b.2, p ∈ points ∧ p.association = b.1) ∧
        (reg.get? b.1).isSome :=
  have hs : Registry.Sound ⟨[("bar", ⟨"bar", ["id"], ⟨"bar", ["id"], fun _ => .ok fun _ => .ok [],
      fun ps => (ps, none)⟩⟩)]⟩ := Registry.sound_of_entries (by decide)
  have h : (collectPoints ⟨[("bar", ⟨"bar", ["id"], ⟨"bar", ["id"], fun _ => .ok fun _ => .ok [],
        fun ps => (ps, none)⟩⟩)]⟩ 64
      [.pred ⟨"bar.id", .equals .null⟩,
        .group .or [.pred ⟨"name", .equals .null⟩, .pred ⟨"bar.id", .equals .null⟩]]).run.run [] =
      (.ok ([.group .or [.pred ⟨"name", .equals .null⟩]],
        [⟨⟨[0]⟩, "", "bar", [⟨"bar.id", .equals .null⟩]⟩,
          ⟨⟨[]⟩, "", "bar", [⟨"bar.id", .equals .null⟩]⟩]),
        [.note ⟨.trace, .engine, "Matched virtual association predicate",
          [("field", .text "bar.id"), ("association", .text "bar")]⟩,
         .note ⟨.trace, .engine, "Matched virtual association predicate",
          [("field", .text "bar.id"), ("association", .text "bar")]⟩]) := rfl
  ⟨hs, h, collectPoints_containers hs h⟩

end FilterResolution.Virtual
