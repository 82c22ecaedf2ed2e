import FilterResolution.Proofs.Walk

/-! # Running the batches

The second phase of resolving hands the injection points to their resolvers, batch by batch.
`runBatches` says what it does without looking at the tree: a point's context carries the
ordinary predicates of its container followed by whatever earlier calls appended there; each
batch's resolver prepares once with the contexts of all its points, then creates each context's
replacements in order; the first error, or the first replacement outside its point's parent
path, stops everything. On the settled filters `applyBatches` does exactly that, makes those
calls, and leaves the filters settled with every replacement appended to its container. Read
by the points they concern, the calls are a prefix of the batches' plan (`planOf`), and all of
it when no batch fails; what a batch creates is what its association's resolver created.
-/

namespace FilterResolution.Virtual

open FilterResolution.Filter

/-- Contexts given to `create`, each with the replacements it returned, in call order. -/
abbrev Made := List (Context × List Predicate)

/-- The replacements appended to each container by the calls in `made`, in call order. -/
def appendedAt (made : Made) : Extra :=
  fun q => (made.filter fun m => decide (m.1.point.container = q)).flatMap (·.2)

/-- The report line of a created context. -/
def summaryOf (m : Context × List Predicate) : InjectionSummary := .ofPoint m.1.point m.2

/-- The first replacement whose field lies outside the point's parent path. -/
def firstEscape (p : Point) (rs : List Predicate) : Option Predicate :=
  rs.find? fun q => !withinParent p.parentPath q.field

/-- The ordinary predicates of the container at `q` in the original filters. -/
def ordinaryAt (reg : Registry) (filters : List Node) (q : ContainerPath) : List Predicate :=
  ((keptContainer reg filters q.indices).map (ordinary reg)).getD []

/-- The context of a point once the replacements in `made` stand in their containers. -/
def contextAt (reg : Registry) (filters : List Node) (made : Made) (p : Point) : Context :=
  ⟨p, ordinaryAt reg filters p.container ++ appendedAt made p.container⟩

/-- Creates each context's replacements in order, up to the first call that fails or returns a
replacement outside its point's parent path: the calls made, what they returned, the failure. -/
def createAll (association : String) (create : Creator) :
    List Context → List Event × Made × Option ResolveError
  | [] => ([], [], none)
  | c :: rest =>
    match create c with
    | .error e => ([.created association c], [], some e)
    | .ok rs =>
      match firstEscape c.point rs with
      | some q => ([.created association c], [], some (escapeError c.point q))
      | none =>
        let (calls, made, failure) := createAll association create rest
        (.created association c :: calls, (c, rs) :: made, failure)

/-- Runs one association's batch after the calls in `made`: its resolver prepares once with the
contexts of the points, then creates their replacements one by one. The calls made, what the
created contexts got, and the failure that stopped the batch. -/
def runBatch (reg : Registry) (filters : List Node) (made : Made) :
    String × List Point → List Event × Made × Option ResolveError
  | (a, ps) =>
    let cs := ps.map (contextAt reg filters made)
    match reg.get? a with
    | none => ([], [], some (vanishedError a))
    | some e =>
      match e.resolver.preprocess cs with
      | .error err => ([.preprocessed a cs], [], some err)
      | .ok create =>
        let (calls, made', failure) := createAll a create cs
        (.preprocessed a cs :: calls, made', failure)

/-- Runs the batches in order after the calls in `made`, up to the first failure: the calls
made, every context created so far with its replacements, and the failure. -/
def runBatches (reg : Registry) (filters : List Node) :
    List (String × List Point) → Made → List Event × Made × Option ResolveError
  | [], made => ([], made, none)
  | b :: rest, made =>
    match runBatch reg filters made b with
    | (calls, made', some err) => (calls, made ++ made', some err)
    | (calls, made', none) =>
      let (calls', made'', failure) := runBatches reg filters rest (made ++ made')
      (calls ++ calls', made'', failure)

/-- The report line of a batch. -/
def batchSummary (b : String × List Point) : BatchSummary := ⟨b.1, b.2.length⟩

/-- A resolver call, read by the points it concerns. -/
inductive Call where
  | preprocess (association : String) (points : List Point)
  | create (association : String) (point : Point)
  | inject (association : String) (parents : List String)

/-- The call an event records; a note records none. -/
def Event.call? : Event → Option Call
  | .note _ => none
  | .preprocessed a cs => some (.preprocess a (cs.map (·.point)))
  | .created a c => some (.create a c.point)
  | .injected a parents => some (.inject a parents)

/-- The calls planned for batches: for each, one preparation with all its points, then one
creation per point, in order. -/
def planOf (batches : List (String × List Point)) : List Call :=
  batches.flatMap fun b => .preprocess b.1 b.2 :: b.2.map (.create b.1)

/-- The contexts batch `k` of a run after the calls in `made` hands its resolver: its points `ps`
as the batches before `k` left the filters. -/
def batchContexts (reg : Registry) (filters : List Node) (batches : List (String × List Point))
    (made : Made) (k : Nat) (ps : List Point) : List Context :=
  ps.map (contextAt reg filters (runBatches reg filters (batches.take k) made).2.1)

/-- `rs` is what some batch `k` of a run after the calls in `made` created for `c`: the resolver
of the batch's association, prepared once with the batch's own contexts, returned a creator that
gave `rs` for `c`, one of those contexts. -/
def CreatedBy (reg : Registry) (filters : List Node) (batches : List (String × List Point))
    (made : Made) (c : Context) (rs : List Predicate) : Prop :=
  ∃ k a ps e create, batches[k]? = some (a, ps) ∧ reg.get? a = some e ∧
    c ∈ batchContexts reg filters batches made k ps ∧
    e.resolver.preprocess (batchContexts reg filters batches made k ps) = .ok create ∧
    create c = .ok rs

variable {reg : Registry}

theorem appendedAt_nil : appendedAt [] = Extra.empty := rfl

theorem appendedAt_append (made : Made) (c : Context) (rs : List Predicate) :
    appendedAt (made ++ [(c, rs)]) = (appendedAt made).push c.point.container rs := by
  funext q
  by_cases hq : q = c.point.container
  · subst hq
    simp [appendedAt]
  · rw [Extra.push_ne rs hq]
    have hne : ¬ c.point.container = q := fun h => hq h.symm
    simp [appendedAt, hne]

/-- In the settled filters, the container of a reachable point holds its ordinary predicates
and what was appended to it. -/
theorem predicatesAt_contextAt {filters : List Node} {made : Made} {p : Point} {cs : List Node}
    (h : keptContainer reg filters p.container.indices = some cs) :
    predicatesAt (settled reg (appendedAt made) .root filters) p.container =
      some (contextAt reg filters made p).siblings := by
  rw [predicatesAt_settled _ h]
  simp [contextAt, ordinaryAt, h]

/-- Every replacement lies under the parent path, or the first that does not is refused. -/
theorem checkWithin_makes (p : Point) :
    ∀ rs : List Predicate, Run.Makes (checkWithin p rs)
      (match firstEscape p rs with
       | some q => .error (escapeError p q)
       | none => .ok ()) []
  | [] => Run.makes_pure ()
  | q :: rest => by
    unfold checkWithin
    by_cases hw : withinParent p.parentPath q.field
    · have he : firstEscape p (q :: rest) = firstEscape p rest := by
        simp [firstEscape, hw]
      rw [if_pos hw, he]
      exact checkWithin_makes p rest
    · have he : firstEscape p (q :: rest) = some q := by
        simp [firstEscape, hw]
      rw [if_neg hw, he]
      exact (Run.makes_note _ _ _ _).bind_ok (Run.makes_throw _)

/-- The contexts of reachable points are taken from the settled filters as `contextAt` says. -/
theorem contextsOf_makes (filters : List Node) (made : Made) :
    ∀ ps : List Point, (∀ p ∈ ps, ∃ cs, keptContainer reg filters p.container.indices = some cs) →
      Run.Makes (contextsOf (settled reg (appendedAt made) .root filters) ps)
        (.ok (ps.map (contextAt reg filters made))) []
  | [], _ => Run.makes_pure []
  | p :: rest, hreach => by
    obtain ⟨cs, hc⟩ := hreach p (List.mem_cons_self ..)
    unfold contextsOf
    rw [predicatesAt_contextAt hc]
    have h := contextsOf_makes filters made rest fun q hq => hreach q (List.mem_cons_of_mem _ hq)
    exact h.bind_ok (Run.makes_pure _)

/-- Creating replacements on the settled filters makes the calls `createAll` says and fails as
it says; otherwise every replacement list stands appended to its context's container and has
its line in the report. -/
theorem createEach_makes (filters : List Node) (a : String) (create : Creator) :
    ∀ (cs : List Context) (made : Made) (report : Report),
      (∀ c ∈ cs, ∃ ns, keptContainer reg filters c.point.container.indices = some ns) →
      Run.Makes (createEach a create cs (settled reg (appendedAt made) .root filters) report)
        (match createAll a create cs with
         | (_, _, some e) => .error e
         | (_, made', none) => .ok (settled reg (appendedAt (made ++ made')) .root filters,
             { report with injections := report.injections ++ made'.map summaryOf }))
        (createAll a create cs).1
  | [], made, report, _ => by
    simpa [createEach, createAll] using
      Run.makes_pure (settled reg (appendedAt made) .root filters, report)
  | c :: rest, made, report, hreach => by
    obtain ⟨ns, hc⟩ := hreach c (List.mem_cons_self ..)
    have hcall : (Event.created a c).isCall = true := rfl
    unfold createEach
    cases hcr : create c with
    | error e =>
      simp only [createAll, hcr]
      exact ((Run.makes_record hcall).bind_ok (Run.makes_ofExcept _).bind_error).congr rfl
        (List.append_nil _)
    | ok rs =>
      have hchk := checkWithin_makes c.point rs
      cases hesc : firstEscape c.point rs with
      | some q =>
        rw [hesc] at hchk
        simp only [createAll, hcr, hesc]
        exact ((Run.makes_record hcall).bind_ok ((Run.makes_ofExcept _).bind_ok
          hchk.bind_error)).congr rfl (by simp)
      | none =>
        rw [hesc] at hchk
        -- the replacements go to the end of the context's container, which is reachable
        have hupd : updateAt (settled reg (appendedAt made) .root filters) c.container
            (· ++ rs.map .pred) =
              some (settled reg (appendedAt (made ++ [(c, rs)])) .root filters) := by
          rw [appendedAt_append]
          exact updateAt_settled rs _ hc
        have ih := createEach_makes filters a create rest (made ++ [(c, rs)])
          { report with injections := report.injections ++ [.ofPoint c.point rs] }
          fun c' hc' => hreach c' (List.mem_cons_of_mem _ hc')
        rcases hrest : createAll a create rest with ⟨calls, made', failure⟩
        rw [hrest] at ih
        simp only [createAll, hcr, hesc, hrest]
        refine ((Run.makes_record hcall).bind_ok ((Run.makes_ofExcept _).bind_ok
          (hchk.bind_ok (by rw [hupd]; exact ih)))).congr ?_ ?_
        · cases failure with
          | some e => rfl
          | none => simp [summaryOf]
        · simp

/-- One batch on the settled filters: the calls, the failure and the filters `runBatch` says. -/
theorem applyBatch_makes (filters : List Node) (made : Made) (report : Report)
    (b : String × List Point)
    (hreach : ∀ p ∈ b.2, ∃ cs, keptContainer reg filters p.container.indices = some cs) :
    Run.Makes (applyBatch reg (settled reg (appendedAt made) .root filters) report b)
      (match runBatch reg filters made b with
       | (_, _, some e) => .error e
       | (_, made', none) => .ok (settled reg (appendedAt (made ++ made')) .root filters,
           { report with injections := report.injections ++ made'.map summaryOf,
                         batches := report.batches ++ [batchSummary b] }))
      (runBatch reg filters made b).1 := by
  obtain ⟨a, ps⟩ := b
  have hctx := contextsOf_makes filters made ps hreach
  have hnote := Run.makes_note .debug .plan "Applying virtual association batch"
    [("association", .text a),
      ("injection_points", .count (ps.map (contextAt reg filters made)).length)]
  unfold applyBatch
  cases hget : reg.get? a with
  | none =>
    simp only [runBatch, hget]
    exact (hctx.bind_ok (hnote.bind_ok (Run.makes_throw _))).congr rfl rfl
  | some entry =>
    have hcall : (Event.preprocessed a (ps.map (contextAt reg filters made))).isCall = true := rfl
    cases hp : entry.resolver.preprocess (ps.map (contextAt reg filters made)) with
    | error err =>
      simp only [runBatch, hget, hp]
      exact (hctx.bind_ok (hnote.bind_ok ((Run.makes_record hcall).bind_ok
        (Run.makes_ofExcept_eq hp).bind_error))).congr rfl (by simp)
    | ok create =>
      have hpre := Run.makes_ofExcept_eq hp
      -- every context sits at its point, whose container is reachable
      have hce :=
        createEach_makes filters a create (ps.map (contextAt reg filters made)) made report
        (by
          intro c hc
          obtain ⟨p, hp, rfl⟩ := List.mem_map.1 hc
          exact hreach p hp)
      rcases hcreate : createAll a create (ps.map (contextAt reg filters made)) with
        ⟨calls, made', failure⟩
      rw [hcreate] at hce
      simp only [runBatch, hget, hp, hcreate]
      cases failure with
      | some e =>
        exact (hctx.bind_ok (hnote.bind_ok ((Run.makes_record hcall).bind_ok
          (hpre.bind_ok hce.bind_error)))).congr rfl (by simp)
      | none =>
        exact (hctx.bind_ok (hnote.bind_ok ((Run.makes_record hcall).bind_ok
          (hpre.bind_ok (hce.bind_ok (by exact Run.makes_pure _)))))).congr rfl (by simp)

/-- The batches on the settled filters make the calls `runBatches` says and fail as it says;
otherwise every created context's replacements stand appended to its container, and the report
has a line for each of them and for each batch. -/
theorem applyBatches_makes (filters : List Node) :
    ∀ (batches : List (String × List Point)) (made : Made) (report : Report),
      report.injections = made.map summaryOf →
      (∀ b ∈ batches, ∀ p ∈ b.2, ∃ cs, keptContainer reg filters p.container.indices = some cs) →
      Run.Makes (applyBatches reg batches (settled reg (appendedAt made) .root filters) report)
        (match runBatches reg filters batches made with
         | (_, _, some e) => .error e
         | (_, made', none) => .ok (settled reg (appendedAt made') .root filters,
             { report with injections := made'.map summaryOf,
                           batches := report.batches ++ batches.map batchSummary }))
        (runBatches reg filters batches made).1
  | [], made, report, hinj, _ => by
    obtain ⟨applied, injections, batches⟩ := report
    simp only at hinj
    subst hinj
    simpa [applyBatches, runBatches] using
      Run.makes_pure (settled reg (appendedAt made) .root filters,
        ({ applied, injections := made.map summaryOf, batches } : Report))
  | b :: rest, made, report, hinj, hreach => by
    have hb := applyBatch_makes filters made report b (hreach b (List.mem_cons_self ..))
    rcases hrun : runBatch reg filters made b with ⟨calls, made', failure⟩
    rw [hrun] at hb
    unfold applyBatches
    cases failure with
    | some e =>
      simp only [runBatches, hrun]
      exact hb.bind_error
    | none =>
      have ih := applyBatches_makes filters rest (made ++ made')
        { report with injections := report.injections ++ made'.map summaryOf,
                      batches := report.batches ++ [batchSummary b] }
        (by simp [hinj])
        fun b' hb' => hreach b' (List.mem_cons_of_mem _ hb')
      rcases hrest : runBatches reg filters rest (made ++ made') with ⟨calls', made'', failure'⟩
      rw [hrest] at ih
      simp only [runBatches, hrun, hrest]
      refine (hb.bind_ok ih).congr ?_ rfl
      cases failure' <;> simp

/-! ## The calls made and what they created -/

@[simp] theorem planOf_nil : planOf [] = [] := rfl

@[simp] theorem planOf_cons (b : String × List Point) (rest : List (String × List Point)) :
    planOf (b :: rest) = (.preprocess b.1 b.2 :: b.2.map (.create b.1)) ++ planOf rest := rfl

theorem filterMap_call?_calls (es : List Event) :
    (Event.calls es).filterMap Event.call? = es.filterMap Event.call? := by
  unfold Event.calls
  induction es with
  | nil => rfl
  | cons ev es ih =>
    cases ev <;> simp [List.filter_cons, Event.isCall, Event.call?, List.filterMap_cons, ih]

theorem map_point_contextAt (filters : List Node) (made : Made) (ps : List Point) :
    (ps.map (contextAt reg filters made)).map (·.point) = ps := by
  simp [Function.comp_def, contextAt]

/-- Creating stops at the first failure: its calls are a prefix of one per context. -/
theorem createAll_calls (a : String) (create : Creator) :
    ∀ cs : List Context,
      (createAll a create cs).1.filterMap Event.call? <+: cs.map fun c => .create a c.point
  | [] => List.nil_prefix
  | c :: rest => by
    have ih := createAll_calls a create rest
    rcases hrest : createAll a create rest with ⟨calls, made, failure⟩
    rw [hrest] at ih
    simp only [createAll]
    split
    · simp [Event.call?]
    · split
      · simp [Event.call?]
      · simpa [hrest, Event.call?] using ih

theorem createAll_none (a : String) (create : Creator) :
    ∀ cs : List Context, (createAll a create cs).2.2 = none →
      (createAll a create cs).1.filterMap Event.call? = cs.map (fun c => .create a c.point) ∧
        (createAll a create cs).2.1.map Prod.fst = cs
  | [], _ => ⟨rfl, rfl⟩
  | c :: rest, h => by
    rcases hrest : createAll a create rest with ⟨calls, made, failure⟩
    have ih := createAll_none a create rest
    rw [hrest] at ih
    simp only [createAll] at h ⊢
    split at h
    · cases h
    · split at h
      · cases h
      · simp only [hrest] at h ⊢
        obtain ⟨hc, hm⟩ := ih h
        simp [Event.call?, hc, hm]

theorem mem_createAll (a : String) (create : Creator) :
    ∀ (cs : List Context) (m : Context × List Predicate), m ∈ (createAll a create cs).2.1 →
      m.1 ∈ cs ∧ create m.1 = .ok m.2
  | [], _, hm => by simp [createAll] at hm
  | c :: rest, m, hm => by
    rcases hrest : createAll a create rest with ⟨calls, made, failure⟩
    have ih := mem_createAll a create rest m
    rw [hrest] at ih
    simp only [createAll] at hm
    split at hm
    · simp at hm
    · rename_i rs hcr
      split at hm
      · simp at hm
      · simp only [hrest, List.mem_cons] at hm
        rcases hm with rfl | hm
        · exact ⟨List.mem_cons_self .., hcr⟩
        · obtain ⟨hc, hcr'⟩ := ih hm
          exact ⟨List.mem_cons_of_mem _ hc, hcr'⟩

/-- A batch's calls are a prefix of its plan. -/
theorem runBatch_calls (filters : List Node) (made : Made) (a : String) (ps : List Point) :
    (runBatch reg filters made (a, ps)).1.filterMap Event.call? <+:
      .preprocess a ps :: ps.map (.create a) := by
  have hpts := @map_point_contextAt reg filters made ps
  simp only [runBatch]
  split
  · exact List.nil_prefix
  · split
    · simp [Event.call?, hpts]
    · rename_i create _
      have h := createAll_calls a create (ps.map (contextAt reg filters made))
      rcases hc : createAll a create (ps.map (contextAt reg filters made)) with
        ⟨calls, made', failure⟩
      rw [hc] at h
      simpa [Event.call?, hpts, Function.comp_def, contextAt] using h

/-- A batch that succeeds makes its whole plan and creates for each of its points in order. -/
theorem runBatch_none (filters : List Node) (made : Made) (a : String) (ps : List Point)
    (h : (runBatch reg filters made (a, ps)).2.2 = none) :
    (runBatch reg filters made (a, ps)).1.filterMap Event.call? =
        .preprocess a ps :: ps.map (.create a) ∧
      (runBatch reg filters made (a, ps)).2.1.map (·.1.point) = ps := by
  have hpts := @map_point_contextAt reg filters made ps
  simp only [runBatch] at h ⊢
  split at h
  · cases h
  · rename_i e _
    split at h
    · cases h
    · rename_i create _
      have hn := createAll_none a create (ps.map (contextAt reg filters made))
      rcases hc : createAll a create (ps.map (contextAt reg filters made)) with
        ⟨calls, made', failure⟩
      simp only [hc] at h hn ⊢
      obtain ⟨hcalls, hmade⟩ := hn h
      refine ⟨by simp [Event.call?, hpts, hcalls, contextAt], ?_⟩
      rw [show (fun m : Context × List Predicate => m.1.point) = (·.point) ∘ Prod.fst from rfl,
        ← List.map_map, hmade, hpts]

/-- What a batch creates for a context is what its association's resolver created for it, once
prepared with the batch's contexts. -/
theorem mem_runBatch (filters : List Node) (made : Made) (a : String) (ps : List Point)
    (m : Context × List Predicate) (hm : m ∈ (runBatch reg filters made (a, ps)).2.1) :
    ∃ e create, reg.get? a = some e ∧ m.1 ∈ ps.map (contextAt reg filters made) ∧
      e.resolver.preprocess (ps.map (contextAt reg filters made)) = .ok create ∧
      create m.1 = .ok m.2 := by
  simp only [runBatch] at hm
  split at hm
  · simp at hm
  · rename_i e hget
    split at hm
    · simp at hm
    · rename_i create hpre
      rcases hc : createAll a create (ps.map (contextAt reg filters made)) with
        ⟨calls, made', failure⟩
      have hmem := mem_createAll a create (ps.map (contextAt reg filters made)) m
      simp only [hc] at hm hmem
      obtain ⟨hin, hcr⟩ := hmem hm
      exact ⟨e, create, hget, hin, hpre, hcr⟩

/-- The batches' calls are a prefix of their plan. -/
theorem runBatches_calls (filters : List Node) :
    ∀ (batches : List (String × List Point)) (made : Made),
      (runBatches reg filters batches made).1.filterMap Event.call? <+: planOf batches
  | [], _ => List.nil_prefix
  | (a, ps) :: rest, made => by
    have hb := @runBatch_calls reg filters made a ps
    have hn := @runBatch_none reg filters made a ps
    rcases hr : runBatch reg filters made (a, ps) with ⟨calls, made', failure⟩
    rw [hr] at hb hn
    cases failure with
    | some e =>
      simp only [runBatches, hr, planOf_cons]
      exact hb.trans (List.prefix_append _ _)
    | none =>
      have ih := runBatches_calls filters rest (made ++ made')
      rcases hrest : runBatches reg filters rest (made ++ made') with ⟨calls', made'', failure'⟩
      rw [hrest] at ih
      simp only [runBatches, hr, hrest, List.filterMap_append, (hn rfl).1, planOf_cons]
      exact (List.prefix_append_right_inj _).2 ih

/-- Batches that all succeed make their whole plan, creating for each point in batch order. -/
theorem runBatches_none (filters : List Node) :
    ∀ (batches : List (String × List Point)) (made : Made),
      (runBatches reg filters batches made).2.2 = none →
        (runBatches reg filters batches made).1.filterMap Event.call? = planOf batches ∧
        ∃ new : Made, (runBatches reg filters batches made).2.1 = made ++ new ∧
          new.map (·.1.point) = batches.flatMap (·.2)
  | [], made, _ => ⟨rfl, [], by simp [runBatches]⟩
  | (a, ps) :: rest, made, h => by
    have hn := @runBatch_none reg filters made a ps
    rcases hr : runBatch reg filters made (a, ps) with ⟨calls, made', failure⟩
    rw [hr] at hn
    cases failure with
    | some e => simp [runBatches, hr] at h
    | none =>
      obtain ⟨hcalls, hpts⟩ := hn rfl
      have ih := runBatches_none filters rest (made ++ made')
      rcases hrest : runBatches reg filters rest (made ++ made') with ⟨calls', made'', failure'⟩
      simp only [runBatches, hr, hrest] at h ih ⊢
      obtain ⟨hcalls', new, hmade, hnew⟩ := ih h
      refine ⟨by simp [hcalls, hcalls'], made' ++ new, by simp [hmade], ?_⟩
      simp [hpts, hnew]

/-- After a first batch that succeeds, batch `k + 1` of the run is batch `k` of the rest, run
after what the first one created. -/
theorem batchContexts_succ (filters : List Node) {b : String × List Point}
    {rest : List (String × List Point)} {made made' : Made} {calls : List Event}
    (hb : runBatch reg filters made b = (calls, made', none)) (k : Nat) (ps : List Point) :
    batchContexts reg filters (b :: rest) made (k + 1) ps =
      batchContexts reg filters rest (made ++ made') k ps := by
  simp [batchContexts, runBatches, hb]

/-- A batch's creation is one of a run of it and more batches, as its first batch: the contexts of
batch `0` are read after the calls the run started from. -/
theorem createdBy_head (filters : List Node) {a : String} {ps : List Point}
    {rest : List (String × List Point)} {made : Made} {m : Context × List Predicate}
    (hm : m ∈ (runBatch reg filters made (a, ps)).2.1) :
    CreatedBy reg filters ((a, ps) :: rest) made m.1 m.2 := by
  obtain ⟨e, create, hget, hin, hpre, hcr⟩ := mem_runBatch filters made a ps m hm
  exact ⟨0, a, ps, e, create, rfl, hget, hin, hpre, hcr⟩

/-- A creation of a later batch is one of the whole run, one batch further on. -/
theorem createdBy_tail (filters : List Node) {b : String × List Point}
    {rest : List (String × List Point)} {made made' : Made} {calls : List Event}
    (hb : runBatch reg filters made b = (calls, made', none)) {c : Context} {rs : List Predicate}
    (h : CreatedBy reg filters rest (made ++ made') c rs) :
    CreatedBy reg filters (b :: rest) made c rs := by
  obtain ⟨k, a, ps, e, create, hk, hget, hin, hpre, hcr⟩ := h
  rw [← batchContexts_succ filters hb] at hin hpre
  exact ⟨k + 1, a, ps, e, create, hk, hget, hin, hpre, hcr⟩

/-- Everything a run of batches creates, past what it started with, was created by one of its
batches from that batch's own contexts. -/
theorem mem_runBatches (filters : List Node) :
    ∀ (batches : List (String × List Point)) (made : Made),
      ∀ m ∈ (runBatches reg filters batches made).2.1,
        m ∈ made ∨ CreatedBy reg filters batches made m.1 m.2
  | [], _, m, hm => .inl hm
  | (a, ps) :: rest, made, m, hm => by
    rcases hr : runBatch reg filters made (a, ps) with ⟨calls, made', failure⟩
    -- an entry is an earlier one, one of this batch's, or one of a later batch's
    have hnow : m ∈ made ++ made' →
        m ∈ made ∨ CreatedBy reg filters ((a, ps) :: rest) made m.1 m.2 := by
      intro hm'
      rcases List.mem_append.1 hm' with h | h
      · exact .inl h
      · exact .inr (createdBy_head filters (by rw [hr]; exact h))
    cases failure with
    | some e =>
      simp only [runBatches, hr] at hm
      exact hnow hm
    | none =>
      have ih := mem_runBatches filters rest (made ++ made')
      rcases hrest : runBatches reg filters rest (made ++ made') with ⟨calls', made'', failure'⟩
      simp only [runBatches, hr, hrest] at hm
      rw [hrest] at ih
      rcases ih m hm with h | h
      · exact hnow h
      · exact .inr (createdBy_tail filters hr h)

/-- A batch holds only points among those grouped, each of the batch's association. -/
theorem mem_batchesOf {points : List Point} :
    ∀ b ∈ batchesOf points, ∀ p ∈ b.2, p ∈ points ∧ p.association = b.1 := by
  unfold batchesOf
  dsimp only
  -- each point added along the fold joins the batch of its association or opens one
  refine List.foldlRecOn (motive := fun bs : List (String × List Point) =>
    ∀ b ∈ bs, ∀ p ∈ b.2, p ∈ points ∧ p.association = b.1) points _ (by simp) ?_
  intro bs hinv q hq b hb p hp
  split at hb
  · obtain ⟨⟨a, qs⟩, hmem, hab⟩ := List.mem_map.1 hb
    by_cases ha : a = q.association
    · simp only [ha, beq_self_eq_true, if_true] at hab
      subst hab
      rcases List.mem_append.1 hp with hp | hp
      · exact ha ▸ hinv (a, qs) hmem p hp
      · simp only [List.mem_singleton] at hp
        subst hp
        exact ⟨hq, rfl⟩
    · simp only [beq_iff_eq, ha, if_false] at hab
      subst hab
      exact hinv (a, qs) hmem p hp
  · rcases List.mem_append.1 hb with hb | hb
    · exact hinv b hb p hp
    · simp only [List.mem_singleton] at hb
      subst hb
      simp only [List.mem_singleton] at hp
      subst hp
      exact ⟨hq, rfl⟩

end FilterResolution.Virtual
