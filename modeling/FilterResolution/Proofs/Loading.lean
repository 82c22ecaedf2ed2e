import FilterResolution.Proofs.Outcome
import FilterResolution.Proofs.Registry
import FilterResolution.Virtual.Loader

/-! # Attaching computed associations after a load

A load asks the resolvers of the specification's top-level associations that are registered, in
the order the specification keeps its associations, each once and on all the parents as the
call before left them; it stops at the first call that fails. Names that are not registered are
passed over without a call, and an empty list of parents asks nobody.

`leftBy` and `callsOf` say what asking resolvers in turn does to the parents and which calls it
makes; the run lemmas show the loop does exactly that, up to the first failure.
-/

namespace FilterResolution.Virtual

open FilterResolution.Filter

/-! ## Asking resolvers in turn -/

/-- What the resolver of `name` makes of the parents `ps`: the parents as it leaves them, and its
failure. A name without a resolver leaves them as they are. -/
def injectedBy (reg : Registry) (name : String) (ps : List Entity) :
    List Entity × Option ResolveError :=
  match reg.get? name with
  | some e => e.resolver.inject ps
  | none => (ps, none)

/-- The parents once the resolvers of `names` are asked in turn, each on what the one before
left. -/
def leftBy (reg : Registry) : List String → List Entity → List Entity
  | [], ps => ps
  | name :: rest, ps => leftBy reg rest (injectedBy reg name ps).1

/-- The calls made by asking the resolvers of `names` in turn: each records the parents it is
given, those the calls before left. -/
def callsOf (reg : Registry) : List String → List Entity → List Event
  | [], _ => []
  | name :: rest, ps => .injected name (ps.map (·.id)) :: callsOf reg rest (injectedBy reg name ps).1

/-- Every resolver of `names`, asked in turn from `ps`, succeeds. -/
def SucceedsOn (reg : Registry) (names : List String) (ps : List Entity) : Prop :=
  ∀ pre name post, names = pre ++ name :: post → (injectedBy reg name (leftBy reg pre ps)).2 = none

/-- The associations a load asks for: the specification's top-level names that are registered,
in the order the specification keeps them. -/
def requested (reg : Registry) (spec : Spec) : List String :=
  (spec.associations.map (·.1)).filter reg.contains

theorem succeedsOn_nil (reg : Registry) (ps : List Entity) : SucceedsOn reg [] ps := by
  intro pre name post h
  simp at h

theorem succeedsOn_cons {reg : Registry} {name : String} {rest : List String} {ps : List Entity} :
    SucceedsOn reg (name :: rest) ps ↔
      (injectedBy reg name ps).2 = none ∧ SucceedsOn reg rest (injectedBy reg name ps).1 := by
  constructor
  · intro h
    exact ⟨h [] name rest rfl, fun pre n post hrest => h (name :: pre) n post (by simp [hrest])⟩
  · rintro ⟨hfirst, hrest⟩ pre n post hsplit
    cases pre with
    | nil =>
      obtain ⟨rfl, -⟩ := List.cons.inj hsplit
      exact hfirst
    | cons p pre =>
      obtain ⟨rfl, htail⟩ := List.cons.inj hsplit
      exact hrest pre n post htail

/-- Either every resolver succeeds, or one is the first to fail. -/
theorem firstFailure_of_not_succeedsOn {reg : Registry} :
    ∀ {names : List String} {ps : List Entity}, ¬ SucceedsOn reg names ps →
      ∃ pre name post err, names = pre ++ name :: post ∧ SucceedsOn reg pre ps ∧
        (injectedBy reg name (leftBy reg pre ps)).2 = some err
  | [], ps, h => absurd (succeedsOn_nil reg ps) h
  | name :: rest, ps, h => by
    cases hfirst : (injectedBy reg name ps).2 with
    | some err => exact ⟨[], name, rest, err, rfl, succeedsOn_nil reg ps, hfirst⟩
    | none =>
      have hrest : ¬ SucceedsOn reg rest (injectedBy reg name ps).1 :=
        fun hrest => h (succeedsOn_cons.2 ⟨hfirst, hrest⟩)
      obtain ⟨pre, n, post, err, hsplit, hpre, hfail⟩ := firstFailure_of_not_succeedsOn hrest
      exact ⟨name :: pre, n, post, err, by rw [hsplit]; rfl,
        succeedsOn_cons.2 ⟨hfirst, hpre⟩, hfail⟩

/-! ## The loop -/

theorem Registry.get?_of_contains {reg : Registry} {name : String}
    (h : reg.contains name = true) : ∃ e, reg.get? name = some e :=
  Option.isSome_iff_exists.1 ((Registry.contains_eq reg name).symm.trans h)

/-- The record a load leaves while asking the resolvers of `names` in turn: a note, then the
call, for each. -/
def loadRecord (reg : Registry) : List String → List Entity → List Event
  | [], _ => []
  | name :: rest, ps =>
    [.note ⟨.debug, .loader, "Injecting computed association",
        [("association", .text name), ("parents", .count ps.length)]⟩,
      .injected name (ps.map (·.id))] ++ loadRecord reg rest (injectedBy reg name ps).1

@[simp] theorem Event.calls_injected (a : String) (ids : List String) (es : List Event) :
    Event.calls (.injected a ids :: es) = .injected a ids :: Event.calls es := rfl

theorem calls_loadRecord (reg : Registry) (names : List String) (ps : List Entity) :
    Event.calls (loadRecord reg names ps) = callsOf reg names ps := by
  induction names generalizing ps with
  | nil => rfl
  | cons name rest ih => simp [loadRecord, callsOf, ih]

/-- Names without a resolver are passed over: the loop does what it does on the registered
names alone. -/
theorem injectAll_filter (reg : Registry) (names : List String) (acc : Loaded) :
    injectAll reg names acc = injectAll reg (names.filter reg.contains) acc := by
  induction names generalizing acc with
  | nil => rfl
  | cons name rest ih =>
    cases hget : reg.get? name with
    | none =>
      have hc : reg.contains name = false := by rw [Registry.contains_eq, hget]; rfl
      simp only [injectAll, hget, List.filter_cons, hc]
      exact ih acc
    | some e =>
      have hc : reg.contains name = true := by rw [Registry.contains_eq, hget]; rfl
      simp only [injectAll, hget, List.filter_cons, hc, if_true]
      -- both loops note and call alike; under the two binds only their tails differ
      congr 1
      funext _
      congr 1
      funext _
      split
      · rfl
      · exact ih _

/-- A registered name whose resolver succeeds: a note, the call on the parents as they stand,
and the loop goes on with the parents as the resolver left them. -/
theorem injectAll_cons_of_ok {reg : Registry} {name : String} {acc : Loaded}
    (hreg : reg.contains name = true) (hok : (injectedBy reg name acc.entities).2 = none)
    (rest : List String) (log : List Event) :
    (injectAll reg (name :: rest) acc).run log =
      (injectAll reg rest
        { acc with
          entities := (injectedBy reg name acc.entities).1
          injected := acc.injected ++ [name] }).run
        (log ++ loadRecord reg [name] acc.entities) := by
  obtain ⟨e, hget⟩ := Registry.get?_of_contains hreg
  simp only [injectedBy, hget] at hok ⊢
  cases hinject : e.resolver.inject acc.entities with
  | mk entities failure =>
    rw [hinject] at hok
    subst hok
    simp [injectAll, hget, hinject, loadRecord, note, record]

/-- A registered name whose resolver fails: a note, the call, and the loop ends with the
failure. -/
theorem injectAll_cons_of_error {reg : Registry} {name : String} {acc : Loaded}
    {err : ResolveError} (hreg : reg.contains name = true)
    (herr : (injectedBy reg name acc.entities).2 = some err) (rest : List String)
    (log : List Event) :
    (injectAll reg (name :: rest) acc).run log =
      ({ acc with entities := (injectedBy reg name acc.entities).1, failure := some err },
        log ++ loadRecord reg [name] acc.entities) := by
  obtain ⟨e, hget⟩ := Registry.get?_of_contains hreg
  simp only [injectedBy, hget] at herr ⊢
  cases hinject : e.resolver.inject acc.entities with
  | mk entities failure =>
    rw [hinject] at herr
    subst herr
    simp [injectAll, hget, hinject, loadRecord, note, record]
    rfl

/-- The loop only appends to the record: run after any record, it gives a result and the
events it adds. -/
theorem injectAll_appends (reg : Registry) :
    ∀ (names : List String) (acc : Loaded) (log : List Event),
      ∃ loaded es, (injectAll reg names acc).run log = (loaded, log ++ es)
  | [], acc, log => ⟨acc, [], by simp [injectAll]; rfl⟩
  | name :: rest, acc, log => by
    cases hreg : reg.contains name
    case false =>
      have hget : reg.get? name = none := by
        simpa [Registry.contains_eq] using hreg
      simp only [injectAll, hget]
      exact injectAll_appends reg rest acc log
    cases hresult : (injectedBy reg name acc.entities).2 with
    | some err => exact ⟨_, _, injectAll_cons_of_error hreg hresult rest log⟩
    | none =>
      obtain ⟨loaded, es, hrun⟩ := injectAll_appends reg rest _
        (log ++ loadRecord reg [name] acc.entities)
      rw [injectAll_cons_of_ok hreg hresult, hrun, List.append_assoc]
      exact ⟨loaded, _, rfl⟩

/-- When every registered name's resolver succeeds, the loop asks each once, in order, on the
parents the one before left, and attaches them all. -/
theorem injectAll_succeeds {reg : Registry} :
    ∀ (names : List String) (acc : Loaded) (log : List Event),
      (∀ name ∈ names, reg.contains name = true) → SucceedsOn reg names acc.entities →
        (injectAll reg names acc).run log =
          ({ acc with
              entities := leftBy reg names acc.entities
              injected := acc.injected ++ names },
            log ++ loadRecord reg names acc.entities)
  | [], acc, log, _, _ => by simp [injectAll, leftBy, loadRecord]; rfl
  | name :: rest, acc, log, hreg, hsucc => by
    obtain ⟨hfirst, hrest⟩ := succeedsOn_cons.1 hsucc
    rw [injectAll_cons_of_ok (hreg name (List.mem_cons_self ..)) hfirst,
      injectAll_succeeds rest _ _ (fun n hn => hreg n (List.mem_cons_of_mem _ hn)) hrest]
    simp [leftBy, loadRecord, List.append_assoc]

/-- When a registered name's resolver is the first to fail, the loop asks the names up to it,
each once and in order, and none after it; it ends with that failure. -/
theorem injectAll_fails {reg : Registry} {name : String} {post : List String}
    {err : ResolveError} :
    ∀ (pre : List String) (acc : Loaded) (log : List Event),
      (∀ n ∈ pre ++ name :: post, reg.contains n = true) → SucceedsOn reg pre acc.entities →
        (injectedBy reg name (leftBy reg pre acc.entities)).2 = some err →
        (injectAll reg (pre ++ name :: post) acc).run log =
          ({ acc with
              entities := leftBy reg (pre ++ [name]) acc.entities
              injected := acc.injected ++ pre
              failure := some err },
            log ++ loadRecord reg (pre ++ [name]) acc.entities)
  | [], acc, log, hreg, _, hfail => by
    rw [List.nil_append, injectAll_cons_of_error (hreg name (by simp)) hfail]
    simp [leftBy]
  | p :: pre, acc, log, hreg, hsucc, hfail => by
    obtain ⟨hfirst, hrest⟩ := succeedsOn_cons.1 hsucc
    -- after the first call the parents are as it left them
    have hfail' : (injectedBy reg name (leftBy reg pre (injectedBy reg p acc.entities).1)).2 =
        some err := hfail
    rw [List.cons_append, injectAll_cons_of_ok (hreg p (by simp)) hfirst,
      injectAll_fails pre _ _ (fun n hn => hreg n (List.mem_cons_of_mem _ hn)) hrest hfail']
    simp [leftBy, loadRecord, List.append_assoc]

/-! ## Loading -/

section Load

variable {reg : Registry} {spec : Spec} {entities : List Entity} {log : List Event}
  {loaded : Loaded} {es : List Event}

theorem Registry.load_of_ne_nil (hne : entities ≠ []) :
    reg.load spec entities = injectAll reg (requested reg spec) { entities } := by
  simp [Registry.load, hne, requested, ← injectAll_filter]

theorem mem_requested {name : String} (h : name ∈ requested reg spec) : reg.contains name = true :=
  (List.mem_filter.1 h).2

/-- A load on parents whose every resolver succeeds asks them all, in order. -/
theorem load_of_succeeds (hrun : (reg.load spec entities).run log = (loaded, log ++ es))
    (hne : entities ≠ []) (hall : SucceedsOn reg (requested reg spec) entities) :
    Event.calls es = callsOf reg (requested reg spec) entities ∧
      loaded.injected = requested reg spec ∧
      loaded.entities = leftBy reg (requested reg spec) entities ∧ loaded.failure = none := by
  rw [Registry.load_of_ne_nil hne, injectAll_succeeds _ _ _ (fun _ => mem_requested) hall,
    Prod.mk.injEq] at hrun
  obtain ⟨rfl, hes⟩ := hrun
  rw [← List.append_cancel_left hes, calls_loadRecord]
  exact ⟨rfl, rfl, rfl, rfl⟩

/-- A load stops at the first resolver that fails, with its failure. -/
theorem load_of_first_fails {pre post : List String} {name : String} {err : ResolveError}
    (hrun : (reg.load spec entities).run log = (loaded, log ++ es)) (hne : entities ≠ [])
    (hsplit : requested reg spec = pre ++ name :: post) (hpre : SucceedsOn reg pre entities)
    (hfail : (injectedBy reg name (leftBy reg pre entities)).2 = some err) :
    Event.calls es = callsOf reg (pre ++ [name]) entities ∧ loaded.failure = some err ∧
      loaded.entities = leftBy reg (pre ++ [name]) entities := by
  have hreg : ∀ n ∈ pre ++ name :: post, reg.contains n = true := by
    rw [← hsplit]
    exact fun _ => mem_requested
  rw [Registry.load_of_ne_nil hne, hsplit, injectAll_fails pre _ _ hreg hpre hfail,
    Prod.mk.injEq] at hrun
  obtain ⟨rfl, hes⟩ := hrun
  rw [← List.append_cancel_left hes, calls_loadRecord]
  exact ⟨rfl, rfl, rfl⟩

end Load

/-- A load asks, among the specification's top-level associations in the order it keeps them,
exactly the registered ones, each once, on all the parents as the call before left them, and
returns their names; it stops at the first call that fails, with that failure, asking nobody
after it, and it fails only so. An empty list of parents asks nobody and returns no name. When
the specification keeps its associations in ascending order, as a name-ordered map does, the
names asked ascend too. -/
theorem load_asks_requested (reg : Registry) (spec : Spec) (entities : List Entity)
    (log : List Event) :
    ∃ loaded es, (reg.load spec entities).run log = (loaded, log ++ es) ∧
      (entities = [] → es = [] ∧ loaded.injected = [] ∧ loaded.failure = none) ∧
      (entities ≠ [] →
        (SucceedsOn reg (requested reg spec) entities →
          Event.calls es = callsOf reg (requested reg spec) entities ∧
            loaded.injected = requested reg spec ∧
            loaded.entities = leftBy reg (requested reg spec) entities) ∧
        (∀ pre name post err, requested reg spec = pre ++ name :: post →
          SucceedsOn reg pre entities →
          (injectedBy reg name (leftBy reg pre entities)).2 = some err →
          Event.calls es = callsOf reg (pre ++ [name]) entities ∧ loaded.failure = some err ∧
            loaded.entities = leftBy reg (pre ++ [name]) entities) ∧
        (loaded.failure = none ↔ SucceedsOn reg (requested reg spec) entities)) ∧
      ((spec.associations.map (·.1)).Pairwise (· < ·) →
        (requested reg spec).Pairwise (· < ·)) := by
  have hsorted : (spec.associations.map (·.1)).Pairwise (· < ·) →
      (requested reg spec).Pairwise (· < ·) := fun h => h.filter _
  by_cases hempty : entities = []
  · subst hempty
    exact ⟨{ entities := [] }, [], by simp [Registry.load]; rfl,
      fun _ => ⟨rfl, rfl, rfl⟩, fun h => absurd rfl h, hsorted⟩
  obtain ⟨loaded, es, hrun⟩ := injectAll_appends reg (requested reg spec) { entities } log
  rw [← Registry.load_of_ne_nil hempty] at hrun
  refine ⟨loaded, es, hrun, fun h => absurd h hempty, fun hne => ⟨fun hall => ?_,
    fun _ _ _ _ => load_of_first_fails hrun hne, ?_⟩, hsorted⟩
  · obtain ⟨hcalls, hinjected, hentities, -⟩ := load_of_succeeds hrun hne hall
    exact ⟨hcalls, hinjected, hentities⟩
  · -- a load that does not fail has no resolver failing
    refine ⟨fun hnone => Classical.byContradiction fun hnot => ?_,
      fun hall => (load_of_succeeds hrun hne hall).2.2.2⟩
    obtain ⟨pre, name, post, err, hsplit, hpre, hfail⟩ := firstFailure_of_not_succeedsOn hnot
    rw [(load_of_first_fails hrun hne hsplit hpre hfail).2.1] at hnone
    cases hnone

end FilterResolution.Virtual
