import FilterResolution.Virtual.Run

/-! # What a run gives

A run only ever appends to its record, so what it does from any record is a result together
with the events it adds. `Run.Gives x r es` says so of a computation; the rules below carry it
through `pure`, `throw`, recording and binds, so that each function of resolution gets one
statement of what it gives and its callers never unfold it. Among the events, the calls to
resolvers are those that are not notes.
-/

namespace FilterResolution.Virtual

open FilterResolution.Filter

/-- Run after any record `l`, `x` ends with `r` and the record `l ++ es`. -/
def Run.Gives {α : Type} (x : Run α) (r : Except ResolveError α) (es : List Event) : Prop :=
  ∀ l, x.run.run l = (r, l ++ es)

/-- Whether an event is a call to a resolver rather than a note. -/
def Event.isCall : Event → Bool
  | .note _ => false
  | _ => true

/-- The calls to resolvers among events, in order. -/
def Event.calls (es : List Event) : List Event := es.filter Event.isCall

@[simp] theorem Event.calls_nil : Event.calls [] = [] := rfl

@[simp] theorem Event.calls_append (es es' : List Event) :
    Event.calls (es ++ es') = Event.calls es ++ Event.calls es' := List.filter_append ..

@[simp] theorem Event.calls_note (n : Note) (es : List Event) :
    Event.calls (.note n :: es) = Event.calls es := rfl

@[simp] theorem Event.calls_preprocessed (a : String) (cs : List Context) (es : List Event) :
    Event.calls (.preprocessed a cs :: es) = .preprocessed a cs :: Event.calls es := rfl

@[simp] theorem Event.calls_created (a : String) (c : Context) (es : List Event) :
    Event.calls (.created a c :: es) = .created a c :: Event.calls es := rfl

namespace Run

variable {α β : Type}

theorem gives_pure (a : α) : Gives (pure a : Run α) (.ok a) [] := by
  intro l; simp; rfl

theorem gives_throw (e : ResolveError) : Gives (throw e : Run α) (.error e) [] := by
  intro l; simp; rfl

theorem gives_record (ev : Event) : Gives (record ev : Run Unit) (.ok ()) [ev] := by
  intro l; rfl

theorem gives_note (level : Level) (origin : Origin) (message : String)
    (details : List (String × Detail)) :
    Gives (note level origin message details : Run Unit) (.ok ())
      [.note ⟨level, origin, message, details⟩] :=
  gives_record _

theorem gives_ofExcept (r : Except ResolveError α) : Gives (Run.ofExcept r) r [] := by
  cases r with
  | ok a => exact gives_pure a
  | error e => exact gives_throw e

namespace Gives

variable {x : Run α} {f : α → Run β} {a : α} {r : Except ResolveError β} {e : ResolveError}
  {es es' : List Event}

theorem bind_ok (hx : Gives x (.ok a) es) (hf : Gives (f a) r es') :
    Gives (x >>= f) r (es ++ es') := by
  intro l
  rw [ExceptT.run_bind, StateT.run_bind, hx l]
  exact (hf (l ++ es)).trans (by rw [List.append_assoc])

theorem bind_error (hx : Gives x (.error e) es) : Gives (x >>= f) (.error e) es := by
  intro l
  rw [ExceptT.run_bind, StateT.run_bind, hx l]
  rfl

theorem map_ok {g : α → β} (hx : Gives x (.ok a) es) : Gives (g <$> x) (.ok (g a)) es := by
  intro l
  rw [ExceptT.run_map, StateT.run_map, hx l]
  rfl

theorem map_error {g : α → β} (hx : Gives x (.error e) es) : Gives (g <$> x) (.error e) es := by
  intro l
  rw [ExceptT.run_map, StateT.run_map, hx l]
  rfl

end Gives

end Run

/-- `x` ends with `r`, and the resolver calls among the events it adds are `calls`. -/
def Run.Makes {α : Type} (x : Run α) (r : Except ResolveError α) (calls : List Event) : Prop :=
  ∃ es, Run.Gives x r es ∧ Event.calls es = calls

namespace Run

variable {α β : Type}

theorem makes_pure (a : α) : Makes (pure a : Run α) (.ok a) [] := ⟨[], gives_pure a, rfl⟩

theorem makes_throw (e : ResolveError) : Makes (throw e : Run α) (.error e) [] :=
  ⟨[], gives_throw e, rfl⟩

theorem makes_note (level : Level) (origin : Origin) (message : String)
    (details : List (String × Detail)) :
    Makes (note level origin message details : Run Unit) (.ok ()) [] :=
  ⟨_, gives_note level origin message details, rfl⟩

theorem makes_record {ev : Event} (h : ev.isCall = true) :
    Makes (record ev : Run Unit) (.ok ()) [ev] :=
  ⟨[ev], gives_record ev, by simp [Event.calls, h]⟩

theorem makes_ofExcept (r : Except ResolveError α) : Makes (Run.ofExcept r) r [] :=
  ⟨[], gives_ofExcept r, rfl⟩

theorem makes_ofExcept_eq {x r : Except ResolveError α} (h : x = r) : Makes (Run.ofExcept x) r [] :=
  h ▸ makes_ofExcept x

namespace Makes

variable {x : Run α} {f : α → Run β} {a : α} {r : Except ResolveError β} {e : ResolveError}
  {cs cs' : List Event}

theorem bind_ok (hx : Makes x (.ok a) cs) (hf : Makes (f a) r cs') :
    Makes (x >>= f) r (cs ++ cs') := by
  obtain ⟨es, hx, rfl⟩ := hx
  obtain ⟨es', hf, rfl⟩ := hf
  exact ⟨es ++ es', hx.bind_ok hf, Event.calls_append es es'⟩

theorem bind_error (hx : Makes x (.error e) cs) : Makes (x >>= f) (.error e) cs := by
  obtain ⟨es, hx, rfl⟩ := hx
  exact ⟨es, hx.bind_error, rfl⟩

theorem map_ok {g : α → β} (hx : Makes x (.ok a) cs) : Makes (g <$> x) (.ok (g a)) cs := by
  obtain ⟨es, hx, rfl⟩ := hx
  exact ⟨es, hx.map_ok, rfl⟩

theorem map_error {g : α → β} (hx : Makes x (.error e) cs) : Makes (g <$> x) (.error e) cs := by
  obtain ⟨es, hx, rfl⟩ := hx
  exact ⟨es, hx.map_error, rfl⟩

theorem congr {r r' : Except ResolveError α} (h : Makes x r cs) (hr : r = r') (hc : cs = cs') :
    Makes x r' cs' :=
  hr ▸ hc ▸ h

end Makes

end Run

/-! ## Runs in place

A run in place also reads and writes a specification. `InPlace.Gives` and `InPlace.Makes` say
what it does from a given specification, with the same rules as for runs.
-/

/-- Run on `spec` after any record `l`, `x` ends with `r`, the specification `spec'` and the
record `l ++ es`. -/
def InPlace.Gives {α : Type} (x : InPlace α) (spec : Spec) (r : Except ResolveError α)
    (spec' : Spec) (es : List Event) : Prop :=
  ∀ l, (x.run.run spec).run l = ((r, spec'), l ++ es)

/-- `x` run on `spec` ends with `r` and `spec'`, and the resolver calls among the events it adds
are `calls`. -/
def InPlace.Makes {α : Type} (x : InPlace α) (spec : Spec) (r : Except ResolveError α)
    (spec' : Spec) (calls : List Event) : Prop :=
  ∃ es, InPlace.Gives x spec r spec' es ∧ Event.calls es = calls

/-- In place, a run leaves the specification as it is and adds its events to the record. -/
theorem Run.inPlace_run {α : Type} (x : Run α) (spec : Spec) (l : List Event) :
    ((Run.inPlace x).run.run spec).run l = (((x.run.run l).1, spec), (x.run.run l).2) := rfl

namespace InPlace

variable {α β : Type} {spec spec₁ spec₂ : Spec}

theorem makes_inPlace (spec : Spec) {x : Run α} {r : Except ResolveError α} {calls : List Event}
    (h : Run.Makes x r calls) : Makes (Run.inPlace x) spec r spec calls := by
  obtain ⟨es, hx, hc⟩ := h
  refine ⟨es, fun l => ?_, hc⟩
  rw [Run.inPlace_run, hx l]

theorem makes_get : Makes (getThe Spec) spec (.ok spec) spec [] := ⟨[], fun l => by simp; rfl, rfl⟩

theorem makes_modify (f : Spec → Spec) : Makes (modifyThe Spec f) spec (.ok ()) (f spec) [] :=
  ⟨[], fun l => by simp; rfl, rfl⟩

theorem makes_pure (a : α) : Makes (pure a : InPlace α) spec (.ok a) spec [] :=
  ⟨[], fun l => by simp; rfl, rfl⟩

theorem makes_note (level : Level) (origin : Origin) (message : String)
    (details : List (String × Detail)) :
    Makes (note level origin message details : InPlace Unit) spec (.ok ()) spec [] :=
  ⟨[.note ⟨level, origin, message, details⟩], fun _ => rfl, rfl⟩

namespace Makes

variable {x : InPlace α} {f : α → InPlace β} {a : α} {r : Except ResolveError β}
  {e : ResolveError} {cs cs' : List Event}

theorem bind_ok (hx : Makes x spec (.ok a) spec₁ cs) (hf : Makes (f a) spec₁ r spec₂ cs') :
    Makes (x >>= f) spec r spec₂ (cs ++ cs') := by
  obtain ⟨es, hx, rfl⟩ := hx
  obtain ⟨es', hf, rfl⟩ := hf
  refine ⟨es ++ es', fun l => ?_, Event.calls_append es es'⟩
  rw [ExceptT.run_bind, StateT.run_bind, StateT.run_bind, hx l]
  exact (hf (l ++ es)).trans (by rw [List.append_assoc])

theorem bind_error (hx : Makes x spec (.error e) spec₁ cs) :
    Makes (x >>= f) spec (.error e) spec₁ cs := by
  obtain ⟨es, hx, rfl⟩ := hx
  refine ⟨es, fun l => ?_, rfl⟩
  rw [ExceptT.run_bind, StateT.run_bind, StateT.run_bind, hx l]
  rfl

theorem congr {r r' : Except ResolveError α} {spec' spec'' : Spec} (h : Makes x spec r spec' cs)
    (hr : r = r') (hs : spec' = spec'') (hc : cs = cs') : Makes x spec r' spec'' cs' :=
  hr ▸ hs ▸ hc ▸ h

/-- A run in place ends one way, with one specification and one record. -/
theorem run_eq {r r' : Except ResolveError α} {spec' spec'' : Spec} {l l' : List Event}
    (h : Makes x spec r spec' cs) (h' : (x.run.run spec).run l = ((r', spec''), l')) :
    r' = r ∧ spec'' = spec' ∧ ∃ es, l' = l ++ es ∧ Event.calls es = cs := by
  obtain ⟨es, hx, hc⟩ := h
  obtain ⟨hrs, hl⟩ := Prod.mk.inj (h'.symm.trans (hx l))
  obtain ⟨hr, hs⟩ := Prod.mk.inj hrs
  exact ⟨hr, hs, es, hl, hc⟩

end Makes

end InPlace

end FilterResolution.Virtual
