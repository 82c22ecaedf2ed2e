import FilterResolution.Proofs.Resolution

/-! # What a resolver sees of its container

The contexts of a batch are read from the filters as the batch finds them: a point's sibling
predicates are the ordinary predicates of its container followed by every replacement that the
batches before it appended there. Within a batch all contexts are read before any replacement
is made, so a batch never sees its own replacements; a later association sharing a container
with an earlier one sees the earlier one's.
-/

namespace FilterResolution.Virtual

open FilterResolution.Filter

variable {reg : Registry}

theorem createAll_created (a : String) (create : Creator) :
    ∀ (cs : List Context) (ev : Event), ev ∈ (createAll a create cs).1 → ∃ c, ev = .created a c
  | [], _, h => by simp [createAll] at h
  | c :: rest, ev, h => by
    have ih := createAll_created a create rest ev
    rcases hrest : createAll a create rest with ⟨calls, made, failure⟩
    rw [hrest] at ih
    simp only [createAll] at h
    split at h
    · exact ⟨c, List.mem_singleton.1 h⟩
    · split at h
      · exact ⟨c, List.mem_singleton.1 h⟩
      · simp only [hrest, List.mem_cons] at h
        rcases h with rfl | h
        · exact ⟨c, rfl⟩
        · exact ih h

/-- A batch prepares once, with the contexts of its points as the calls before it left them. -/
theorem runBatch_preprocessed (filters : List Node) (made : Made) (a : String) (ps : List Point)
    {a' : String} {cs : List Context}
    (h : Event.preprocessed a' cs ∈ (runBatch reg filters made (a, ps)).1) :
    a' = a ∧ cs = ps.map (contextAt reg filters made) := by
  simp only [runBatch] at h
  split at h
  · cases h
  · split at h
    · simp only [List.mem_singleton, Event.preprocessed.injEq] at h
      exact ⟨h.1, h.2⟩
    · rename_i create _
      rcases hc : createAll a create (ps.map (contextAt reg filters made)) with
        ⟨calls, made', failure⟩
      have hcreated := createAll_created a create (ps.map (contextAt reg filters made))
      simp only [hc, List.mem_cons, Event.preprocessed.injEq] at h hcreated
      rcases h with h | h
      · exact h
      · obtain ⟨c, hc⟩ := hcreated _ h
        cases hc

/-- Every preparation among the batches' calls is that of some batch `k`, made with the contexts
of its points as the batches before `k` left the filters. -/
theorem runBatches_preprocessed (filters : List Node) :
    ∀ (batches : List (String × List Point)) (made : Made) (a : String) (cs : List Context),
      Event.preprocessed a cs ∈ (runBatches reg filters batches made).1 →
      ∃ (k : Nat) (ps : List Point), batches[k]? = some (a, ps) ∧
        cs = ps.map (contextAt reg filters (runBatches reg filters (batches.take k) made).2.1)
  | [], _, _, _, h => by simp [runBatches] at h
  | (b, ps) :: rest, made, a, cs, h => by
    rcases hr : runBatch reg filters made (b, ps) with ⟨calls, made', failure⟩
    have hfirst : Event.preprocessed a cs ∈ calls → a = b ∧ cs = ps.map (contextAt reg filters made) :=
      fun hm => runBatch_preprocessed filters made b ps (by rw [hr]; exact hm)
    cases failure with
    | some e =>
      simp only [runBatches, hr] at h
      obtain ⟨rfl, rfl⟩ := hfirst h
      exact ⟨0, ps, rfl, by simp [runBatches]⟩
    | none =>
      rcases hrest : runBatches reg filters rest (made ++ made') with ⟨calls', made'', failure'⟩
      simp only [runBatches, hr, hrest, List.mem_append] at h
      rcases h with h | h
      · obtain ⟨rfl, rfl⟩ := hfirst h
        exact ⟨0, ps, rfl, by simp [runBatches]⟩
      · -- a later batch: the first one has added what it created
        have ih := runBatches_preprocessed filters rest (made ++ made') a cs (by rw [hrest]; exact h)
        obtain ⟨k, ps', hk, hcs⟩ := ih
        refine ⟨k + 1, ps', by simpa using hk, ?_⟩
        rw [hcs]
        simp [runBatches, hr]

/-- The sibling predicates of a point's context in a batch's preparation: the ordinary
predicates of its container in the original filters, then the replacements that the batches
before it appended to that container, in the order they were made. -/
theorem resolve_context_siblings {engine : Engine} {spec spec' : Spec} {log log' : List Event}
    {r : Except ResolveError Report}
    (h : (engine.resolve.run.run spec).run log = ((r, spec'), log')) {a : String}
    {cs : List Context} (hev : Event.preprocessed a cs ∈ log') (hnew : Event.preprocessed a cs ∉ log) :
    ∃ (k : Nat) (ps : List Point), (batchesFor engine.registry spec.filters)[k]? = some (a, ps) ∧
      cs.map (·.point) = ps ∧
      ∀ c ∈ cs, c.siblings = ordinaryAt engine.registry spec.filters c.point.container ++
        appendedAt (runBatches engine.registry spec.filters
          ((batchesFor engine.registry spec.filters).take k) []).2.1 c.point.container := by
  obtain ⟨-, -, es, hl, hc⟩ := resolve_run h
  subst hl
  have hes : Event.preprocessed a cs ∈ es := by
    rcases List.mem_append.1 hev with h | h
    · exact absurd h hnew
    · exact h
  -- a preparation is a call, so it is among the calls of the resolution
  have hcall : Event.preprocessed a cs ∈ (resolution engine spec).2 := by
    rw [← hc]
    exact List.mem_filter.2 ⟨hes, rfl⟩
  rcases resolution_calls engine spec with h0 | h0
  · rw [h0] at hcall
    cases hcall
  · rw [h0] at hcall
    obtain ⟨k, ps, hk, rfl⟩ := runBatches_preprocessed spec.filters _ [] a cs hcall
    refine ⟨k, ps, hk, map_point_contextAt _ _ ps, fun c hcm => ?_⟩
    obtain ⟨p, -, rfl⟩ := List.mem_map.1 hcm
    rfl

/-- Two associations whose predicates stand in the top-level list: `bar` turns its predicates
into predicates on `bar_computed_flag`, and `stock` turns the sibling predicates on
`bar_computed_flag` it sees into predicates on `seen`. -/
def sharedRootEngine : Engine where
  registry := ⟨[("bar", ⟨"bar", ["isActive"], ⟨"bar", ["isActive"],
      fun _ => .ok fun c => .ok (c.predicates.map (·.withField (c.parentFieldPath "bar_computed_flag"))),
      fun ps => (ps, none)⟩⟩),
    ("stock", ⟨"stock", ["id"], ⟨"stock", ["id"],
      fun _ => .ok fun c => .ok ((c.predicatesOnParentField "bar_computed_flag").map
        (·.withField (c.parentFieldPath "seen"))),
      fun ps => (ps, none)⟩⟩)]⟩

/-- A virtual predicate of each association side by side, nothing else. -/
def sharedRootSpec : Spec :=
  { filters := [.pred ⟨"bar.isActive", .equals (.bool true)⟩, .pred ⟨"stock.id", .equals (.bool true)⟩] }

/-- Which preparation of a run is the `stock` batch's, seeing a sibling on
`bar_computed_flag`. -/
def stockSeesFlag : Event → Bool
  | .preprocessed a cs => a == "stock" && cs.map (·.siblings.map (·.field)) == [["bar_computed_flag"]]
  | _ => false

theorem resolve_context_siblings_shared_root :
    ∃ cs, Event.preprocessed "stock" cs ∈
        ((sharedRootEngine.resolve.run.run sharedRootSpec).run []).2 ∧
      Event.preprocessed "stock" cs ∉ ([] : List Event) ∧
      ∃ (k : Nat) (ps : List Point),
        (batchesFor sharedRootEngine.registry sharedRootSpec.filters)[k]? = some ("stock", ps) ∧
        cs.map (·.point) = ps ∧
        ∀ c ∈ cs, c.siblings = ordinaryAt sharedRootEngine.registry sharedRootSpec.filters
            c.point.container ++
          appendedAt (runBatches sharedRootEngine.registry sharedRootSpec.filters
            ((batchesFor sharedRootEngine.registry sharedRootSpec.filters).take k) []).2.1
            c.point.container := by
  have h : (sharedRootEngine.resolve.run.run sharedRootSpec).run [] =
      ((((sharedRootEngine.resolve.run.run sharedRootSpec).run []).1.1,
        ((sharedRootEngine.resolve.run.run sharedRootSpec).run []).1.2),
        ((sharedRootEngine.resolve.run.run sharedRootSpec).run []).2) :=
    run_eq_outcome rfl
  have hany : ((sharedRootEngine.resolve.run.run sharedRootSpec).run []).2.any stockSeesFlag =
      true := by
    decide +kernel
  obtain ⟨ev, hmem, hev⟩ := List.any_eq_true.1 hany
  -- the event found is the preparation of the `stock` batch
  cases ev with
  | preprocessed a cs =>
    have ha : a = "stock" := by
      simp only [stockSeesFlag, Bool.and_eq_true, beq_iff_eq] at hev
      exact hev.1
    subst ha
    exact ⟨cs, hmem, by simp, resolve_context_siblings h hmem (by simp)⟩
  | note n => cases hev
  | created a c => cases hev
  | injected a ps => cases hev

/-- The `stock` batch comes second; its container held no ordinary predicate, yet its context
shows the replacement that the `bar` batch appended there. -/
theorem resolve_later_batch_sees_replacement :
    ordinaryAt sharedRootEngine.registry sharedRootSpec.filters .root = [] ∧
    (((sharedRootEngine.resolve.run.run sharedRootSpec).run []).2.filterMap fun ev =>
      match ev with
      | .preprocessed a cs => some (a, cs.map (·.siblings.map (·.field)))
      | _ => none) = [("bar", [[]]), ("stock", [["bar_computed_flag"]])] :=
  ⟨by decide +kernel, by decide +kernel⟩

end FilterResolution.Virtual
