import FilterResolution.Proofs.Batches

/-! # Resolving a specification

Resolving refuses a specification whose virtual associations carry filters of their own, then
walks the top-level filters, then hands their injection points to the resolvers batch by batch.
`resolution` says what that gives, without state: the outcome, the specification left behind
and the resolver calls made. The engine, working in place, does exactly that
(`resolve_makes`). From it follow what the filters become after a success, that a failure or an
unchanged report leaves the specification as it was, which calls are made in which order, and
which error a failing resolution returns.
-/

namespace FilterResolution.Virtual

open FilterResolution.Filter

/-! ## Refused specifications -/

mutual
/-- The associations of a specification at every depth, in pre-order: each before those of its
own sub-specification, siblings in their order. -/
def descendants : Spec → List (String × Spec)
  | ⟨_, associations, _⟩ => descendantsOf associations

/-- The associations among these and below them, in pre-order. -/
def descendantsOf : List (String × Spec) → List (String × Spec)
  | [] => []
  | (name, sub) :: rest => (name, sub) :: (descendants sub ++ descendantsOf rest)
end

/-- Whether an association is virtual and carries filters of its own. -/
def carriesFilters (reg : Registry) (a : String × Spec) : Bool := reg.contains a.1 && a.2.hasFilters

/-- The first association, in pre-order, that is virtual and carries filters. -/
def firstRefused (reg : Registry) (spec : Spec) : Option (String × Spec) :=
  (descendants spec).find? (carriesFilters reg)

variable {reg : Registry}

mutual
/-- Validation refuses the first virtual association in pre-order that carries filters. -/
theorem validateSpec_eq : ∀ spec : Spec,
    validateSpec reg spec =
      match firstRefused reg spec with
      | some a => .error (.filtersOnVirtualAssociation a.1)
      | none => .ok ()
  | ⟨_, associations, _⟩ => validateAssociations_eq associations

theorem validateAssociations_eq : ∀ as : List (String × Spec),
    validateAssociations reg as =
      match (descendantsOf as).find? (carriesFilters reg) with
      | some a => .error (.filtersOnVirtualAssociation a.1)
      | none => .ok ()
  | [] => rfl
  | (name, sub) :: rest => by
    rw [validateAssociations, descendantsOf, List.find?_cons, List.find?_append,
      validateSpec_eq sub, validateAssociations_eq rest]
    cases hc : carriesFilters reg (name, sub)
    · -- the association passes: its own associations are checked before its later siblings
      have hc' : (reg.contains name && sub.hasFilters) = false := hc
      simp only [hc', Bool.false_eq_true, if_false, firstRefused]
      cases (descendants sub).find? (carriesFilters reg) <;> rfl
    · have hc' : (reg.contains name && sub.hasFilters) = true := hc
      simp only [hc', if_true]
end

/-! ## The whole resolution -/

/-- The batches of the injection points of a filter list. -/
def batchesFor (reg : Registry) (filters : List Node) : List (String × List Point) :=
  batchesOf (pointsOf reg filters)

/-- What resolving `spec` gives: the outcome with the specification left behind, and the
resolver calls made. A refused specification, a fault of the filters or a failed batch leaves
`spec` as it is; so do filters without injection points. Otherwise the filters are settled
with every replacement appended, and the fast path is turned off. -/
def resolution (engine : Engine) (spec : Spec) : (Except ResolveError Report × Spec) × List Event :=
  match validateSpec engine.registry spec with
  | .error e => ((.error e, spec), [])
  | .ok () =>
    match nodesFault engine.registry engine.config.maxGroupDepth 0 spec.filters with
    | some e => ((.error e, spec), [])
    | none =>
      if (pointsOf engine.registry spec.filters).isEmpty then ((.ok Report.unchanged, spec), [])
      else
        match runBatches engine.registry spec.filters
          (batchesFor engine.registry spec.filters) [] with
        | (calls, _, some e) => ((.error e, spec), calls)
        | (calls, made, none) =>
          ((.ok { applied := true, injections := made.map summaryOf,
                  batches := (batchesFor engine.registry spec.filters).map batchSummary },
            spec.disableFastPath.replaceFilters
              (settled engine.registry (appendedAt made) .root spec.filters)),
           calls)

/-- Filters without injection points have no batches. -/
theorem batchesFor_of_pointsOf_nil {filters : List Node} (h : pointsOf reg filters = []) :
    batchesFor reg filters = [] := by
  simp [batchesFor, h, batchesOf]

/-- Every point of a batch stands in a reachable container. -/
theorem batchesFor_reachable {filters : List Node} :
    ∀ b ∈ batchesFor reg filters, ∀ p ∈ b.2,
      ∃ cs, keptContainer reg filters p.container.indices = some cs := by
  intro b hb p hp
  obtain ⟨cs, hc, _⟩ := mem_pointsOf (mem_batchesOf b hb p hp).1
  exact ⟨cs, hc⟩

/-- The engine resolves in place exactly as `resolution` says. -/
theorem resolve_makes (engine : Engine) (spec : Spec) :
    InPlace.Makes engine.resolve spec (resolution engine spec).1.1 (resolution engine spec).1.2
      (resolution engine spec).2 := by
  have hcol := @collectPoints_makes engine.registry engine.config.maxGroupDepth spec.filters
  unfold Engine.resolve
  cases hv : validateSpec engine.registry spec with
  | error e =>
    simp only [resolution, hv]
    exact (InPlace.makes_get.bind_ok
      (InPlace.makes_inPlace spec (Run.makes_ofExcept_eq hv)).bind_error).congr rfl rfl rfl
  | ok u =>
    simp only [resolution, hv]
    refine InPlace.makes_get.bind_ok
      ((InPlace.makes_inPlace spec (Run.makes_ofExcept_eq hv)).bind_ok ?_)
    cases hf : nodesFault engine.registry engine.config.maxGroupDepth 0 spec.filters with
    | some e =>
      rw [hf] at hcol
      exact (InPlace.makes_inPlace spec hcol).bind_error
    | none =>
      rw [hf] at hcol
      -- the walk passes; what follows depends on the points found
      refine (InPlace.makes_inPlace spec hcol).bind_ok ?_
      by_cases hp : (pointsOf engine.registry spec.filters).isEmpty = true
      · simp only [hp, if_true]
        exact (InPlace.makes_note _ _ _ _).bind_ok (InPlace.makes_pure _)
      · -- the batches run on the settled filters, starting from nothing created
        have happly := applyBatches_makes spec.filters (batchesFor engine.registry spec.filters) []
          {} rfl batchesFor_reachable
        rcases hrun :
          runBatches engine.registry spec.filters (batchesFor engine.registry spec.filters) [] with
          ⟨calls, made, failure⟩
        rw [hrun] at happly
        simp only [hp, Bool.false_eq_true, if_false]
        cases failure with
        | some e =>
          exact (InPlace.makes_note _ _ _ _).bind_ok (InPlace.makes_inPlace spec happly).bind_error
        | none =>
          -- the filters are replaced and the fast path turned off only after every batch
          refine ((InPlace.makes_note _ _ _ _).bind_ok ((InPlace.makes_inPlace spec happly).bind_ok
            (by
              exact (InPlace.makes_modify _).bind_ok ((InPlace.makes_modify _).bind_ok
                ((InPlace.makes_note _ _ _ _).bind_ok (InPlace.makes_pure _)))))).congr ?_ rfl ?_
          · simp [batchesFor]
          · simp

/-- A run of the engine ends as `resolution` says, adding events whose calls it lists. -/
theorem resolve_run {engine : Engine} {spec spec' : Spec} {log log' : List Event}
    {r : Except ResolveError Report}
    (h : (engine.resolve.run.run spec).run log = ((r, spec'), log')) :
    r = (resolution engine spec).1.1 ∧ spec' = (resolution engine spec).1.2 ∧
      ∃ es, log' = log ++ es ∧ Event.calls es = (resolution engine spec).2 :=
  (resolve_makes engine spec).run_eq h

/-- A run is its outcome with the specification and record it leaves. -/
theorem run_eq_outcome {x : (Except ResolveError Report × Spec) × List Event}
    {o : Except ResolveError Report} (h : x.1.1 = o) : x = ((o, x.1.2), x.2) := by
  obtain ⟨⟨r, s⟩, l⟩ := x
  cases h
  rfl

/-! ## A sample registry

Three resolvers for the runs the results below are checked on. `bar` turns each of its
predicates into one on the parent's `bar_flag`, and `stock` each of its own into one on the
parent's `stock_id`; `leaky` returns a predicate on the top-level `flag`, outside any parent
path below the top.
-/

/-- The `bar`, `leaky` and `stock` resolvers, filed by name. -/
def catalogEngine : Engine where
  registry := ⟨[("bar", ⟨"bar", ["isActive"], ⟨"bar", ["isActive"],
      fun _ => .ok fun c => .ok (c.predicates.map (·.withField (c.parentFieldPath "bar_flag"))),
      fun ps => (ps, none)⟩⟩),
    ("leaky", ⟨"leaky", ["flag"], ⟨"leaky", ["flag"],
      fun _ => .ok fun c => .ok (c.predicates.map (·.withField "flag")),
      fun ps => (ps, none)⟩⟩),
    ("stock", ⟨"stock", ["id"], ⟨"stock", ["id"],
      fun _ => .ok fun c => .ok (c.predicates.map (·.withField (c.parentFieldPath "stock_id"))),
      fun ps => (ps, none)⟩⟩)]⟩

/-- Ordinary and virtual predicates in the top-level list and in an `or` group, one of them
under the parent path `offer`. -/
def nestedSpec : Spec :=
  { filters := [.pred ⟨"name", .equals (.string "a")⟩,
      .pred ⟨"bar.isActive", .equals (.bool true)⟩,
      .group .or [.pred ⟨"bar.isActive", .equals (.bool false)⟩,
        .pred ⟨"code", .equals (.string "x")⟩, .pred ⟨"offer.stock.id", .equals (.string "s2")⟩],
      .pred ⟨"stock.id", .equals (.string "s1")⟩] }

/-- A `bar` predicate, then a `leaky` one under the parent path `item`. -/
def escapeSpec : Spec :=
  { filters := [.pred ⟨"bar.isActive", .equals (.bool true)⟩,
      .pred ⟨"item.leaky.flag", .equals (.bool true)⟩] }

/-! ## What a resolution leaves -/

theorem resolution_keeps (engine : Engine) (spec : Spec) :
    (∀ e, (resolution engine spec).1.1 = .error e → (resolution engine spec).1.2 = spec) ∧
      ∀ report, (resolution engine spec).1.1 = .ok report → report.applied = false →
        (resolution engine spec).1.2 = spec := by
  unfold resolution
  split
  · exact ⟨fun _ _ => rfl, fun _ _ _ => rfl⟩
  · split
    · exact ⟨fun _ _ => rfl, fun _ _ _ => rfl⟩
    · split
      · exact ⟨fun _ _ => rfl, fun _ _ _ => rfl⟩
      · split
        · exact ⟨fun _ _ => rfl, fun _ _ _ => rfl⟩
        · -- only a run that replaced something changes the specification, and it says so
          refine ⟨fun e h => (by cases h), fun report h ha => ?_⟩
          cases h
          cases ha

/-- A failed resolution, or one that replaced nothing, leaves the specification as it was: its
filters, its associations and its fast path. -/
theorem resolve_leaves_spec {engine : Engine} {spec spec' : Spec} {log log' : List Event}
    {r : Except ResolveError Report}
    (h : (engine.resolve.run.run spec).run log = ((r, spec'), log')) :
    (∀ e, r = .error e → spec' = spec) ∧
      ∀ report, r = .ok report → report.applied = false → spec' = spec := by
  obtain ⟨hr, hs, -⟩ := resolve_run h
  subst hr hs
  exact resolution_keeps engine spec

/-- Two failing runs leave the specification as it was: one refused at the depth check before
any call, and one that fails in its second batch, the `leaky` one, on a replacement outside its
point's parent path `item`, after the `bar` batch made its preparation and creation (four calls
in all). -/
theorem resolve_leaves_spec_failing_runs :
    (((Engine.resolve ⟨{}, { maxGroupDepth := 0 }⟩).run.run
        ({ filters := [.group .and []] } : Spec)).run [] =
      ((.error (.filterTreeTooDeep 0), { filters := [.group .and []] }), []) ∧
    ((∀ e, (.error (.filterTreeTooDeep 0) : Except ResolveError Report) = .error e →
        ({ filters := [.group .and []] } : Spec) = { filters := [.group .and []] }) ∧
      ∀ report, (.error (.filterTreeTooDeep 0) : Except ResolveError Report) = .ok report →
        report.applied = false →
          ({ filters := [.group .and []] } : Spec) = { filters := [.group .and []] })) ∧
    ∃ e spec' log',
      (catalogEngine.resolve.run.run escapeSpec).run [] = ((.error e, spec'), log') ∧
      e = .invariantViolation
        "resolver \"leaky\" produced predicate on \"flag\" outside prefix \"item\"" ∧
      (log'.filterMap Event.call?).length = 4 ∧
      ((∀ e', (.error e : Except ResolveError Report) = .error e' → spec' = escapeSpec) ∧
        ∀ report, (.error e : Except ResolveError Report) = .ok report →
          report.applied = false → spec' = escapeSpec) := by
  have hdeep : ((Engine.resolve ⟨{}, { maxGroupDepth := 0 }⟩).run.run
      ({ filters := [.group .and []] } : Spec)).run [] =
        ((.error (.filterTreeTooDeep 0), { filters := [.group .and []] }), []) := rfl
  have he : ((catalogEngine.resolve.run.run escapeSpec).run []).1.1 = .error (.invariantViolation
      "resolver \"leaky\" produced predicate on \"flag\" outside prefix \"item\"") := by
    decide +kernel
  have hcalls : (((catalogEngine.resolve.run.run escapeSpec).run []).2.filterMap
      Event.call?).length = 4 := by
    decide +kernel
  have h := run_eq_outcome he
  exact ⟨⟨hdeep, resolve_leaves_spec hdeep⟩, _, _, _, h, rfl, hcalls, resolve_leaves_spec h⟩

/-- What a successful resolution did: each point of the batches, in batch order, got what its
resolver created for it, appended to the point's container of the settled filters; the report
has a line per point and per batch; and the calls are the whole plan. What was created is the
run's own: the contexts and replacements of running the batches. -/
theorem resolution_ok {engine : Engine} {spec : Spec} {report : Report}
    (h : (resolution engine spec).1.1 = .ok report) :
    let batches := batchesFor engine.registry spec.filters
    let made := (runBatches engine.registry spec.filters batches []).2.1
    made.map (·.1.point) = batches.flatMap (·.2) ∧
      (∀ m ∈ made, CreatedBy engine.registry spec.filters batches [] m.1 m.2) ∧
      (resolution engine spec).1.2.filters =
        settled engine.registry (appendedAt made) .root spec.filters ∧
      report.injections = made.map summaryOf ∧
      report.batches = batches.map batchSummary ∧
      (resolution engine spec).2.filterMap Event.call? = planOf batches := by
  intro batches made
  have hmem := @mem_runBatches engine.registry spec.filters batches []
  unfold resolution at h ⊢
  cases hv : validateSpec engine.registry spec with
  | error e => simp [hv] at h
  | ok u =>
    cases hf : nodesFault engine.registry engine.config.maxGroupDepth 0 spec.filters with
    | some e => simp [hv, hf] at h
    | none =>
      by_cases hp : (pointsOf engine.registry spec.filters).isEmpty = true
      · -- no points: nothing is virtual, so the filters are already settled
        have hnil : pointsOf engine.registry spec.filters = [] := List.isEmpty_iff.1 hp
        have hb : batches = [] := batchesFor_of_pointsOf_nil hnil
        have hmade : made = [] := by
          simp only [made, hb]
          rfl
        simp only [hv, hf, hp, if_true, Except.ok.injEq] at h ⊢
        subst h
        refine ⟨by simp [hmade, hb], by simp [hmade], ?_, by simp [hmade, Report.unchanged],
          by simp [hb, Report.unchanged], by simp [hb]⟩
        rw [hmade, appendedAt_nil, settled_of_noVirtual .root (noVirtual_of_pointsOf hf hnil)]
      · rcases hrun : runBatches engine.registry spec.filters batches [] with
          ⟨calls, made', failure⟩
        have hmade : made = made' := by simp only [made, hrun]
        cases failure with
        | some e => simp [hv, hf, hp, batches, hrun] at h
        | none =>
          obtain ⟨hcalls, new, hnew, hpts⟩ :=
            runBatches_none spec.filters batches [] (by rw [hrun])
          rw [hrun] at hcalls hnew hmem
          simp only [List.nil_append] at hnew
          subst hnew
          simp only [hv, hf, hp, batches, hrun, Bool.false_eq_true, if_false,
            Except.ok.injEq] at h ⊢
          subst h
          rw [hmade]
          refine ⟨hpts, fun m hm => ?_, rfl, rfl, rfl, hcalls⟩
          rcases hmem m hm with hm | hm
          · cases hm
          · exact hm

/-- After a successful resolution the filters are the old ones with the virtual predicates taken
out of every container, groups and ordinary predicates kept in order, and at the end of each
container the replacements its resolvers created for its points, points in batch order: each
context is the one its batch handed the resolver, and each list what the creator that this
batch's preparation returned gave for it. -/
theorem resolve_ok_filters {engine : Engine} {spec spec' : Spec} {log log' : List Event}
    {report : Report} (h : (engine.resolve.run.run spec).run log = ((.ok report, spec'), log')) :
    let batches := batchesFor engine.registry spec.filters
    let made := (runBatches engine.registry spec.filters batches []).2.1
    made.map (·.1.point) = batches.flatMap (·.2) ∧
      (∀ m ∈ made, CreatedBy engine.registry spec.filters batches [] m.1 m.2) ∧
      spec'.filters = settled engine.registry (appendedAt made) .root spec.filters := by
  obtain ⟨hr, hs, -⟩ := resolve_run h
  obtain ⟨hpts, hcreated, hfilters, -⟩ := resolution_ok hr.symm
  exact ⟨hpts, hcreated, hs ▸ hfilters⟩

/-- A nested resolution: `bar` and `stock` predicates stand in the top-level list and in an `or`
group, one under the parent path `offer`. The group's points come first, so each of the two
batches holds the group's point, then the top-level one; the virtual predicates are taken out
and every container ends with its replacements. -/
theorem resolve_ok_filters_nested :
    ∃ report spec' log',
      (catalogEngine.resolve.run.run nestedSpec).run [] = ((.ok report, spec'), log') ∧
      (batchesFor catalogEngine.registry nestedSpec.filters).map
          (fun b => (b.1, b.2.map (·.container.indices))) =
        [("bar", [[1], []]), ("stock", [[1], []])] ∧
      spec'.filters.map Node.render =
        ["name = 'a'", "(code = 'x' OR bar_flag = false OR offer.stock_id = 's2')",
          "bar_flag = true", "stock_id = 's1'"] ∧
      let batches := batchesFor catalogEngine.registry nestedSpec.filters
      let made := (runBatches catalogEngine.registry nestedSpec.filters batches []).2.1
      made.map (·.1.point) = batches.flatMap (·.2) ∧
        (∀ m ∈ made, CreatedBy catalogEngine.registry nestedSpec.filters batches [] m.1 m.2) ∧
        spec'.filters = settled catalogEngine.registry (appendedAt made) .root nestedSpec.filters := by
  have hok : ((catalogEngine.resolve.run.run nestedSpec).run []).1.1.isOk = true := by
    decide +kernel
  have hfilters : ((catalogEngine.resolve.run.run nestedSpec).run []).1.2.filters.map Node.render =
      ["name = 'a'", "(code = 'x' OR bar_flag = false OR offer.stock_id = 's2')",
        "bar_flag = true", "stock_id = 's1'"] := by
    decide +kernel
  -- the run succeeded: name its report
  cases hr : ((catalogEngine.resolve.run.run nestedSpec).run []).1.1 with
  | error e =>
    rw [hr] at hok
    cases hok
  | ok report =>
    have h := run_eq_outcome hr
    exact ⟨report, _, _, h, by decide +kernel, hfilters, resolve_ok_filters h⟩

/-! ## The calls a resolution makes -/

/-- A resolution makes no call, or exactly the calls of running its batches. -/
theorem resolution_calls (engine : Engine) (spec : Spec) :
    (resolution engine spec).2 = [] ∨
      (resolution engine spec).2 =
        (runBatches engine.registry spec.filters
          (batchesFor engine.registry spec.filters) []).1 := by
  unfold resolution
  split
  · exact .inl rfl
  · split
    · exact .inl rfl
    · split
      · exact .inl rfl
      · rename_i hrun
        split <;> simp [*]

/-- The resolver calls of one resolution: none, or those of running its batches, which stop at
the first failing call; in any case a prefix of the plan (per association in first-seen order,
one preparation with all its points, then one creation per point); none at all when nothing is
virtual. After a success they are the whole plan, and the report has a line per batch and one
per created point, in call order, with what its resolver created from its batch's contexts. -/
theorem resolve_calls {engine : Engine} {spec spec' : Spec} {log log' : List Event}
    {r : Except ResolveError Report}
    (h : (engine.resolve.run.run spec).run log = ((r, spec'), log')) :
    let batches := batchesFor engine.registry spec.filters
    ∃ es, log' = log ++ es ∧
      (Event.calls es = [] ∨
        Event.calls es = (runBatches engine.registry spec.filters batches []).1) ∧
      es.filterMap Event.call? <+: planOf batches ∧
      (NoVirtual engine.registry spec.filters → es.filterMap Event.call? = []) ∧
      ∀ report, r = .ok report →
        es.filterMap Event.call? = planOf batches ∧
        report.batches = batches.map batchSummary ∧
        let made := (runBatches engine.registry spec.filters batches []).2.1
        made.map (·.1.point) = batches.flatMap (·.2) ∧
          report.injections = made.map summaryOf ∧
          ∀ m ∈ made, CreatedBy engine.registry spec.filters batches [] m.1 m.2 := by
  intro batches
  obtain ⟨hr, -, es, hl, hc⟩ := resolve_run h
  have hcalls : es.filterMap Event.call? = (resolution engine spec).2.filterMap Event.call? := by
    rw [← hc, filterMap_call?_calls]
  have hprefix : es.filterMap Event.call? <+: planOf batches := by
    rw [hcalls]
    rcases resolution_calls engine spec with h0 | h0
    · rw [h0]
      exact List.nil_prefix
    · rw [h0]
      exact runBatches_calls _ _ _
  refine ⟨es, hl, by rw [hc]; exact resolution_calls engine spec, hprefix, fun hnv => ?_,
    fun report hrep => ?_⟩
  · -- nothing virtual: no points, so an empty plan
    have hplan : planOf batches = [] := by
      rw [show batches = [] from batchesFor_of_pointsOf_nil (pointsOf_of_noVirtual hnv)]
      rfl
    exact List.prefix_nil.1 (hplan ▸ hprefix)
  · subst hr
    obtain ⟨hpts, hcreated, -, hinj, hbat, hplan⟩ := resolution_ok hrep
    exact ⟨hcalls.trans hplan, hbat, hpts, hinj, hcreated⟩

/-- The calls of the nested resolution: a preparation and two creations per batch, and a report
line per created point in call order, the group's point before the top-level one in each batch. -/
theorem resolve_calls_nested :
    ∃ report spec' log',
      (catalogEngine.resolve.run.run nestedSpec).run [] = ((.ok report, spec'), log') ∧
      (log'.filterMap Event.call?).length = 6 ∧
      report =
        { applied := true,
          injections :=
            [⟨"root/1", "", "bar", ["bar.isActive = false"], ["bar_flag = false"]⟩,
             ⟨"root", "", "bar", ["bar.isActive = true"], ["bar_flag = true"]⟩,
             ⟨"root/1", "offer", "stock", ["offer.stock.id = 's2'"], ["offer.stock_id = 's2'"]⟩,
             ⟨"root", "", "stock", ["stock.id = 's1'"], ["stock_id = 's1'"]⟩],
          batches := [⟨"bar", 2⟩, ⟨"stock", 2⟩] } ∧
      let batches := batchesFor catalogEngine.registry nestedSpec.filters
      ∃ es, log' = [] ++ es ∧
        (Event.calls es = [] ∨
          Event.calls es = (runBatches catalogEngine.registry nestedSpec.filters batches []).1) ∧
        es.filterMap Event.call? <+: planOf batches ∧
        (NoVirtual catalogEngine.registry nestedSpec.filters → es.filterMap Event.call? = []) ∧
        ∀ report', (.ok report : Except ResolveError Report) = .ok report' →
          es.filterMap Event.call? = planOf batches ∧
          report'.batches = batches.map batchSummary ∧
          let made := (runBatches catalogEngine.registry nestedSpec.filters batches []).2.1
          made.map (·.1.point) = batches.flatMap (·.2) ∧
            report'.injections = made.map summaryOf ∧
            ∀ m ∈ made, CreatedBy catalogEngine.registry nestedSpec.filters batches [] m.1 m.2 := by
  have hreport : ((catalogEngine.resolve.run.run nestedSpec).run []).1.1 =
      .ok { applied := true,
            injections :=
              [⟨"root/1", "", "bar", ["bar.isActive = false"], ["bar_flag = false"]⟩,
               ⟨"root", "", "bar", ["bar.isActive = true"], ["bar_flag = true"]⟩,
               ⟨"root/1", "offer", "stock", ["offer.stock.id = 's2'"], ["offer.stock_id = 's2'"]⟩,
               ⟨"root", "", "stock", ["stock.id = 's1'"], ["stock_id = 's1'"]⟩],
            batches := [⟨"bar", 2⟩, ⟨"stock", 2⟩] } := by
    decide +kernel
  have hcalls : (((catalogEngine.resolve.run.run nestedSpec).run []).2.filterMap
      Event.call?).length = 6 := by
    decide +kernel
  have h := run_eq_outcome hreport
  exact ⟨_, _, _, h, hcalls, rfl, resolve_calls h⟩

/-! ## When a resolution fails -/

/-- The error a resolution fails with, if any: the first virtual association in pre-order that
carries filters; else the first fault of the filters in pre-order; else the first failure of
running the batches, in call order. -/
def firstFailure (engine : Engine) (spec : Spec) : Option ResolveError :=
  match firstRefused engine.registry spec with
  | some a => some (.filtersOnVirtualAssociation a.1)
  | none =>
    match nodesFault engine.registry engine.config.maxGroupDepth 0 spec.filters with
    | some e => some e
    | none =>
      (runBatches engine.registry spec.filters (batchesFor engine.registry spec.filters) []).2.2

theorem resolution_error_iff (engine : Engine) (spec : Spec) (e : ResolveError) :
    (resolution engine spec).1.1 = .error e ↔ firstFailure engine spec = some e := by
  unfold resolution firstFailure
  rw [validateSpec_eq]
  cases firstRefused engine.registry spec with
  | some a => simp
  | none =>
    cases nodesFault engine.registry engine.config.maxGroupDepth 0 spec.filters with
    | some e' => simp
    | none =>
      by_cases hp : (pointsOf engine.registry spec.filters).isEmpty = true
      · -- no points: no batch to run, so no failure
        have hb := batchesFor_of_pointsOf_nil (List.isEmpty_iff.1 hp)
        simp [hp, hb, runBatches]
      · rcases runBatches engine.registry spec.filters (batchesFor engine.registry spec.filters) []
          with ⟨calls, made, failure⟩
        cases failure <;> simp [hp]

/-- A resolution fails exactly when `firstFailure` finds an error, and with that error. -/
theorem resolve_fails_iff (engine : Engine) (spec : Spec) (log : List Event) (e : ResolveError) :
    (∃ spec' log', (engine.resolve.run.run spec).run log = ((.error e, spec'), log')) ↔
      firstFailure engine spec = some e := by
  rw [← resolution_error_iff]
  obtain ⟨es, hg, -⟩ := resolve_makes engine spec
  constructor
  · rintro ⟨spec', log', h⟩
    exact (resolve_run h).1.symm
  · intro he
    exact ⟨(resolution engine spec).1.2, log ++ es, by rw [hg log, he]⟩

end FilterResolution.Virtual
