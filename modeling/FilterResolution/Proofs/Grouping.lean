import FilterResolution.Proofs.Walk
import Mathlib.Data.List.Induction

/-! # First-seen grouping

Two loops of the resolution group items by key, keys in the order first seen: the buckets of a
container collect its virtual predicates under their parent path and association, and the plan's
points are split into batches by association. Each keeps a list of groups, looks the item's key up
and appends the item to that group, or opens a new group at the end. Both compute `keyedGroups`,
a stable group-by (`StableGrouping`): one group per distinct key, the keys in the order they first
occur, each group the items of its key in their order, so that the groups partition the items.

The step both loops take is `joinGroup`; `keyedGroups_snoc` says it extends the grouping of the
items seen by one more item, and `foldl_eq_keyedGroups` turns that into the run of a whole loop.
-/

namespace FilterResolution.Virtual

open FilterResolution.Filter

section Grouping

variable {κ β : Type} [BEq κ]

/-- Key-value pairs grouped by key: one group per distinct key, keys in the order they first
occur, each group holding the values of its key's pairs in their order. -/
def keyedGroups (xs : List (κ × β)) : List (κ × List β) :=
  (xs.map Prod.fst).eraseDups.map fun k => (k, (xs.filter (·.1 == k)).map Prod.snd)

/-- One step of first-seen grouping: the value joins the group of its key, or opens a group at
the end when the key is new. -/
def joinGroup (gs : List (κ × List β)) (k : κ) (v : β) : List (κ × List β) :=
  if gs.any (·.1 == k) then gs.map fun g => if g.1 == k then (g.1, g.2 ++ [v]) else g
  else gs ++ [(k, [v])]

/-- What a stable group-by of key-value pairs is: one group per distinct key, keys in the order
they first occur, each group the values of its key in their order; together the groups hold every
value once. -/
structure StableGrouping (xs : List (κ × β)) (gs : List (κ × List β)) : Prop where
  keys_nodup : (gs.map Prod.fst).Nodup
  keys_firstSeen : gs.map Prod.fst = (xs.map Prod.fst).eraseDups
  group_eq : ∀ g ∈ gs, g.2 = (xs.filter (·.1 == g.1)).map Prod.snd
  partition : (gs.flatMap Prod.snd).Perm (xs.map Prod.snd)

@[simp] theorem keyedGroups_nil : keyedGroups ([] : List (κ × β)) = [] := rfl

theorem keys_keyedGroups (xs : List (κ × β)) :
    (keyedGroups xs).map Prod.fst = (xs.map Prod.fst).eraseDups := by
  simp [keyedGroups, Function.comp_def]

/-- A loop whose every step takes the grouping of the items seen so far to the grouping with one
more item computes the grouping of all its items. -/
theorem foldl_eq_keyedGroups {α : Type} (key : α → κ × β)
    (step : List (κ × List β) → α → List (κ × List β))
    (hstep : ∀ xs a, step (keyedGroups (xs.map key)) a = keyedGroups ((xs ++ [a]).map key))
    (ys : List α) : ys.foldl step [] = keyedGroups (ys.map key) := by
  -- the accumulator is the grouping of the items already passed
  have hrun : ∀ xs ys : List α,
      ys.foldl step (keyedGroups (xs.map key)) = keyedGroups ((xs ++ ys).map key) := by
    intro xs ys
    induction ys generalizing xs with
    | nil => rw [List.foldl_nil, List.append_nil]
    | cons y ys ih => rw [List.foldl_cons, hstep, ih, List.append_assoc, List.singleton_append]
  have h := hrun [] ys
  rwa [List.map_nil, keyedGroups_nil, List.nil_append] at h

variable [LawfulBEq κ]

/-- A key seen before adds nothing to the keys in first-seen order; a new one comes last. -/
theorem eraseDups_snoc (l : List κ) (a : κ) :
    (l ++ [a]).eraseDups = if a ∈ l then l.eraseDups else l.eraseDups ++ [a] := by
  rw [List.eraseDups_append]
  by_cases h : a ∈ l
  · simp [List.removeAll, h]
  · simp [List.removeAll, h, List.eraseDups_cons]

theorem nodup_eraseDups (l : List κ) : l.eraseDups.Nodup := by
  induction l using List.reverseRecOn with
  | nil => simp
  | append_singleton l a ih =>
    rw [eraseDups_snoc]
    split
    · exact ih
    · rename_i h
      rw [List.nodup_append]
      refine ⟨ih, by simp, ?_⟩
      intro b hb c hc hbc
      rw [List.mem_singleton] at hc
      subst hc hbc
      exact h (List.mem_eraseDups.1 hb)

theorem any_keyedGroups (xs : List (κ × β)) (k : κ) :
    (keyedGroups xs).any (·.1 == k) = decide (k ∈ xs.map Prod.fst) := by
  rw [Bool.eq_iff_iff]
  simp [keyedGroups, Function.comp_def, List.any_eq_true, List.mem_eraseDups]

theorem values_snoc (xs : List (κ × β)) (k k' : κ) (v : β) :
    ((xs ++ [(k, v)]).filter (·.1 == k')).map Prod.snd =
      (xs.filter (·.1 == k')).map Prod.snd ++ if k' == k then [v] else [] := by
  by_cases h : k' = k
  · subst h
    simp [List.filter_append]
  · simp [List.filter_append, h, Ne.symm h]

theorem filter_key_eq_nil {xs : List (κ × β)} {k : κ} (h : k ∉ xs.map Prod.fst) :
    xs.filter (·.1 == k) = [] := by
  rw [List.filter_eq_nil_iff]
  intro x hx hk
  exact h (List.mem_map.2 ⟨x, hx, beq_iff_eq.1 hk⟩)

/-- The step lemma: joining one more pair to the grouping of `xs` gives the grouping of
`xs` with that pair at the end. -/
theorem keyedGroups_snoc (xs : List (κ × β)) (k : κ) (v : β) :
    keyedGroups (xs ++ [(k, v)]) = joinGroup (keyedGroups xs) k v := by
  rw [joinGroup, any_keyedGroups]
  by_cases hk : k ∈ xs.map Prod.fst
  · -- a key seen before: its group grows, the keys stay
    simp only [hk, decide_true, if_true, keyedGroups, List.map_append, List.map_cons, List.map_nil,
      eraseDups_snoc, List.map_map]
    apply List.map_congr_left
    intro k' _
    simp only [Function.comp_apply, values_snoc]
    split <;> simp
  · -- a new key: a group opens at the end, the others stay
    simp only [hk, decide_false, Bool.false_eq_true, if_false, keyedGroups, List.map_append,
      List.map_cons, List.map_nil, eraseDups_snoc, values_snoc, beq_self_eq_true,
      filter_key_eq_nil hk]
    congr 1
    apply List.map_congr_left
    intro k' hk'
    have hne : (k' == k) = false := by
      rw [beq_eq_false_iff_ne]
      rintro rfl
      exact hk (List.mem_eraseDups.1 hk')
    simp [hne]

/-- Filtering by each of distinct keys that together cover every pair loses and repeats no
pair. -/
theorem flatMap_filter_perm : ∀ (ks : List κ) (xs : List (κ × β)), ks.Nodup →
    (∀ x ∈ xs, x.1 ∈ ks) → (ks.flatMap fun k => xs.filter (·.1 == k)).Perm xs
  | [], xs, _, hcover => by
    cases xs with
    | nil => exact .nil
    | cons x _ => exact absurd (hcover x (List.mem_cons_self ..)) List.not_mem_nil
  | k :: ks, xs, hnd, hcover => by
    rw [List.nodup_cons] at hnd
    -- the later keys see only the pairs whose key is not `k`
    have hlater : (ks.flatMap fun k' => xs.filter (·.1 == k')) =
        ks.flatMap fun k' => (xs.filter fun x => !(x.1 == k)).filter (·.1 == k') := by
      show (ks.map _).flatten = (ks.map _).flatten
      congr 1
      apply List.map_congr_left
      intro k' hk'
      rw [List.filter_filter]
      apply List.filter_congr
      intro x _
      by_cases hx : x.1 = k'
      · subst hx
        have hne : (x.1 == k) = false := by
          rw [beq_eq_false_iff_ne]
          rintro rfl
          exact hnd.1 hk'
        simp [hne]
      · simp [hx]
    have hcover' : ∀ x ∈ xs.filter (fun x => !(x.1 == k)), x.1 ∈ ks := by
      intro x hx
      rw [List.mem_filter, Bool.not_eq_true', beq_eq_false_iff_ne] at hx
      exact (List.mem_cons.1 (hcover x hx.1)).resolve_left hx.2
    rw [List.flatMap_cons, hlater]
    exact ((flatMap_filter_perm ks _ hnd.2 hcover').append_left _).trans
      (List.filter_append_perm _ xs)

/-- `keyedGroups` is a stable group-by. -/
theorem keyedGroups_stable (xs : List (κ × β)) : StableGrouping xs (keyedGroups xs) where
  keys_nodup := keys_keyedGroups xs ▸ nodup_eraseDups _
  keys_firstSeen := keys_keyedGroups xs
  group_eq := by
    intro g hg
    obtain ⟨k, -, rfl⟩ := List.mem_map.1 hg
    rfl
  partition := by
    have hcover : ∀ x ∈ xs, x.1 ∈ (xs.map Prod.fst).eraseDups := by
      intro x hx
      exact List.mem_eraseDups.2 (List.mem_map.2 ⟨x, hx, rfl⟩)
    have hperm := (flatMap_filter_perm _ xs (nodup_eraseDups _) hcover).map Prod.snd
    simpa [keyedGroups, List.map_flatMap, List.flatMap_map, Function.comp_def] using hperm

example : keyedGroups [("bar", 0), ("other", 1), ("bar", 2)] = [("bar", [0, 2]), ("other", [1])] := by
  decide

end Grouping

/-! ## The two loops -/

/-- On buckets with distinct keys, adding a predicate joins it to the bucket of its key or opens
one at the end. -/
theorem Buckets.add_eq_joinGroup (key : String × String) (p : Predicate) :
    ∀ b : Buckets, (b.map Prod.fst).Nodup → b.add key p = joinGroup b key p
  | [], _ => by simp [Buckets.add, joinGroup]
  | (k, ps) :: rest, hnd => by
    rw [List.map_cons, List.nodup_cons] at hnd
    by_cases h : k = key
    · subst h
      -- no later bucket has this key, so the rest is left as it is
      have hrest : ∀ e ∈ rest, (e.1 == k) = false := by
        intro e he
        rw [beq_eq_false_iff_ne]
        rintro rfl
        exact hnd.1 (List.mem_map.2 ⟨e, he, rfl⟩)
      have hmap : rest.map (fun g => if g.1 == k then (g.1, g.2 ++ [p]) else g) = rest := by
        conv_rhs => rw [← List.map_id rest]
        apply List.map_congr_left
        intro e he
        simp [hrest e he]
      simp only [Buckets.add, joinGroup, List.any_cons, beq_self_eq_true, Bool.true_or,
        if_true, List.map_cons, hmap]
    · have ih := Buckets.add_eq_joinGroup key p rest hnd.2
      have hk : (k == key) = false := beq_eq_false_iff_ne.2 h
      simp only [Buckets.add, h, if_false, ih, joinGroup, List.any_cons, hk, Bool.false_or]
      split
      · simp [h]
      · rfl

theorem foldl_add_eq_keyedGroups (xs : List ((String × String) × Predicate)) :
    xs.foldl (fun b x => Buckets.add x.1 x.2 b) [] = keyedGroups xs := by
  -- every step adds to buckets with distinct keys, where adding is `joinGroup`
  have hstep : ∀ (ys : List ((String × String) × Predicate)) x,
      Buckets.add x.1 x.2 (keyedGroups (ys.map id)) = keyedGroups ((ys ++ [x]).map id) := by
    intro ys x
    rw [List.map_id, List.map_id, keyedGroups_snoc,
      Buckets.add_eq_joinGroup _ _ _ (keyedGroups_stable ys).keys_nodup]
  simpa using foldl_eq_keyedGroups id _ hstep xs

/-- The virtual predicates standing directly among nodes, each under its parent path and
association, in order. -/
def keyedVirtuals (reg : Registry) (nodes : List Node) : List ((String × String) × Predicate) :=
  nodes.filterMap fun
    | .pred p => (virtualField? reg p.field).map fun vf => ((vf.parentPath, vf.association), p)
    | .group .. => none

/-- The buckets of a container are `Buckets.add` folded over its virtual predicates. -/
theorem Buckets.collect_eq_foldl (reg : Registry) :
    ∀ (b : Buckets) (nodes : List Node),
      Buckets.collect reg b nodes =
        (keyedVirtuals reg nodes).foldl (fun b x => Buckets.add x.1 x.2 b) b
  | _, [] => rfl
  | b, .pred p :: rest => by
    cases hv : virtualField? reg p.field with
    | none =>
      simp only [Buckets.collect, keyedVirtuals, List.filterMap_cons, hv, Option.map_none]
      exact Buckets.collect_eq_foldl reg b rest
    | some vf =>
      simp only [Buckets.collect, keyedVirtuals, List.filterMap_cons, hv, Option.map_some,
        List.foldl_cons]
      exact Buckets.collect_eq_foldl reg _ rest
  | b, .group .. :: rest => Buckets.collect_eq_foldl reg b rest

theorem batchesOf_eq_keyedGroups (points : List Point) :
    batchesOf points = keyedGroups (points.map fun p => (p.association, p)) := by
  unfold batchesOf
  apply foldl_eq_keyedGroups
  intro xs p
  rw [List.map_append, List.map_singleton, keyedGroups_snoc]
  -- the batch step is `joinGroup` at the point's association
  rfl

/-- Both first-seen grouping loops compute a stable group-by: `Buckets.add` folded over any
predicates keyed by parent path and association, in particular over the virtual predicates of a
container, and the batches of a list of points keyed by association. -/
theorem firstSeenGroupings_stable :
    (∀ xs : List ((String × String) × Predicate),
      StableGrouping xs (xs.foldl (fun b x => Buckets.add x.1 x.2 b) [])) ∧
    (∀ (reg : Registry) (nodes : List Node),
      StableGrouping (keyedVirtuals reg nodes) (Buckets.collect reg [] nodes)) ∧
    ∀ points : List Point,
      StableGrouping (points.map fun p => (p.association, p)) (batchesOf points) := by
  refine ⟨fun xs => ?_, fun reg nodes => ?_, fun points => ?_⟩
  · rw [foldl_add_eq_keyedGroups]
    exact keyedGroups_stable xs
  · rw [Buckets.collect_eq_foldl, foldl_add_eq_keyedGroups]
    exact keyedGroups_stable _
  · rw [batchesOf_eq_keyedGroups]
    exact keyedGroups_stable _

end FilterResolution.Virtual
