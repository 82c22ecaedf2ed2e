import FilterResolution.Proofs.Registry

/-! # What building a registry gives

Building walks the resolvers in registration order and checks each in turn: its association name,
then its allowed fields, then, under the reject policy, that no earlier resolver has its name.
The first resolver that fails a check decides the error, and a build fails only so. When none
fails, the registry maps each name to the entry of the first resolver with that name, files no
name twice, and has a warning for every later resolver with a name seen before.

The loop keeps one invariant (`Registry.Holds`): the registry built so far is what the resolvers
passed so far describe. One step of the loop keeps it (`addAll_cons_of_passes`); the two run
lemmas follow by induction over the resolvers.
-/

namespace FilterResolution.Virtual

open FilterResolution FilterResolution.Filter

/-! ## Names and fields -/

/-- A name an association or a field may have: not empty, and without a dot. -/
def ValidName (name : String) : Prop := name ≠ "" ∧ '.' ∉ name.toList

theorem Registry.validName_iff (name : String) : Registry.validName name = true ↔ ValidName name := by
  unfold Registry.validName ValidName
  rw [String.contains_char_eq, Bool.and_eq_true, Bool.not_eq_true', Bool.not_eq_true',
    decide_eq_false_iff_not]
  simp [pathSeparator]

theorem Registry.invalidField?_eq_none_iff (r : Resolver) :
    Registry.invalidField? r = none ↔ ∀ f ∈ r.fields, ValidName f := by
  simp [Registry.invalidField?, ← Registry.validName_iff]

theorem Registry.invalidField?_eq_some {r : Resolver} {before after : List String} {f : String}
    (hfields : r.fields = before ++ f :: after) (hbefore : ∀ g ∈ before, ValidName g)
    (hf : ¬ ValidName f) : Registry.invalidField? r = some f := by
  have hnone : before.find? (!Registry.validName ·) = none := by
    simpa [← Registry.validName_iff] using hbefore
  rw [Registry.invalidField?, hfields, List.find?_append, hnone, Option.none_or, List.find?_cons]
  simp [← Registry.validName_iff] at hf
  simp [hf]

theorem mem_insertName (f name : String) (names : List String) :
    f ∈ insertName name names ↔ f = name ∨ f ∈ names := by
  induction names with
  | nil => simp [insertName]
  | cons n rest ih =>
    simp only [insertName]
    split
    · simp
    · split
      · rename_i heq
        subst heq
        simp
      · simp only [List.mem_cons, ih]
        exact or_left_comm

/-- The allowed fields of an entry are the resolver's fields as a set. -/
theorem mem_sortNames (f : String) (names : List String) : f ∈ sortNames names ↔ f ∈ names := by
  suffices h : ∀ acc, f ∈ names.foldl (fun s n => insertName n s) acc ↔ f ∈ acc ∨ f ∈ names by
    simpa [sortNames] using h []
  induction names with
  | nil => simp
  | cons n rest ih =>
    intro acc
    simp only [List.foldl_cons, ih, mem_insertName, List.mem_cons]
    rw [or_assoc, or_left_comm]

/-! ## Keys of a map -/

theorem KeyMap.mem_keys_iff {α : Type} (m : List (String × α)) (k : String) :
    k ∈ m.map (·.1) ↔ (KeyMap.get? k m).isSome := by
  induction m with
  | nil => simp [KeyMap.get?]
  | cons kv rest ih =>
    obtain ⟨k', v⟩ := kv
    by_cases hk : k = k' <;> simp [KeyMap.get?, hk, ih]

theorem KeyMap.mem_keys_insert {α : Type} (m : List (String × α)) (key k : String) (v : α) :
    k ∈ (KeyMap.insert key v m).map (·.1) ↔ k = key ∨ k ∈ m.map (·.1) := by
  induction m with
  | nil => simp [KeyMap.insert]
  | cons kw rest ih =>
    obtain ⟨k', w⟩ := kw
    simp only [KeyMap.insert]
    split
    · simp
    · split
      · rename_i heq
        subst heq
        simp
      · simp only [List.map_cons, List.mem_cons, ih]
        exact or_left_comm

theorem KeyMap.nodup_keys_insert {α : Type} (m : List (String × α)) (key : String) (v : α)
    (hnew : KeyMap.get? key m = none) (hnodup : (m.map (·.1)).Nodup) :
    ((KeyMap.insert key v m).map (·.1)).Nodup := by
  induction m with
  | nil => simp [KeyMap.insert]
  | cons kw rest ih =>
    obtain ⟨k', w⟩ := kw
    have hne : key ≠ k' := by
      intro h
      simp [KeyMap.get?, h] at hnew
    have hrest : KeyMap.get? key rest = none := by simpa [KeyMap.get?, hne] using hnew
    have hkey : key ∉ rest.map (·.1) := by simp [KeyMap.mem_keys_iff, hrest]
    rw [List.map_cons, List.nodup_cons] at hnodup
    simp only [KeyMap.insert, if_neg hne]
    split
    · -- the new key goes first, before a larger one
      simp only [List.map_cons, List.nodup_cons, List.mem_cons, not_or]
      exact ⟨⟨hne, hkey⟩, hnodup.1, hnodup.2⟩
    · simp only [List.map_cons, List.nodup_cons, KeyMap.mem_keys_insert, not_or]
      exact ⟨⟨Ne.symm hne, hnodup.1⟩, ih hrest hnodup.2⟩

/-! ## The checks of building -/

/-- Resolvers that pass every check of building: their association names and allowed fields
are valid names, and under the reject policy no association name comes twice. -/
def Admits (policy : DuplicatePolicy) (rs : List Resolver) : Prop :=
  (∀ r ∈ rs, ValidName r.association ∧ ∀ f ∈ r.fields, ValidName f) ∧
    (policy = .reject → (rs.map (·.association)).Nodup)

/-- The check a resolver fails after the resolvers `before` it, and the error it gives: a bad
association name; else the first bad allowed field; else, under the reject policy, a name an
earlier resolver has. -/
inductive Fails (policy : DuplicatePolicy) (before : List Resolver) (r : Resolver) :
    RegistryError → Prop
  | name : ¬ ValidName r.association → Fails policy before r (.invalidAssociationName r.association)
  | field {fieldsBefore fieldsAfter : List String} {f : String} : ValidName r.association →
      r.fields = fieldsBefore ++ f :: fieldsAfter → (∀ g ∈ fieldsBefore, ValidName g) →
      ¬ ValidName f → Fails policy before r (.invalidFieldName r.association f)
  | duplicate : ValidName r.association → (∀ f ∈ r.fields, ValidName f) → policy = .reject →
      r.association ∈ before.map (·.association) →
      Fails policy before r (.duplicateAssociation r.association)

/-- The names of resolvers whose name is among `seen` or an earlier resolver's, in order. -/
def repeatsAfter : List String → List Resolver → List String
  | _, [] => []
  | seen, r :: rest =>
    (if r.association ∈ seen then [r.association] else []) ++
      repeatsAfter (seen ++ [r.association]) rest

/-! ## The loop invariant -/

/-- The registry the resolvers `done` leave: each name maps to the entry of the first of them
with that name, and no name is filed twice. -/
structure Registry.Holds (reg : Registry) (done : List Resolver) : Prop where
  get?_eq : ∀ n, reg.get? n = (done.find? (·.association == n)).map Registry.entryOf
  nodup : reg.names.Nodup

theorem Registry.holds_empty : Registry.Holds {} [] :=
  ⟨fun _ => rfl, List.nodup_nil⟩

theorem Registry.Holds.contains_iff {reg : Registry} {done : List Resolver} (h : reg.Holds done)
    (n : String) : reg.contains n = true ↔ n ∈ done.map (·.association) := by
  rw [Registry.contains_eq, h.get?_eq n]
  simp [List.find?_isSome]

/-- An entry found under a name is that of a resolver passed with that name. -/
theorem Registry.Holds.mem_of_get? {reg : Registry} {done : List Resolver} (h : reg.Holds done)
    {n : String} {e : Entry} (he : reg.get? n = some e) :
    ∃ r ∈ done, r.association = n ∧ e = Registry.entryOf r := by
  rw [h.get?_eq n] at he
  obtain ⟨r, hfind, rfl⟩ := Option.map_eq_some_iff.1 he
  exact ⟨r, List.mem_of_find?_eq_some hfind, by simpa using List.find?_some hfind, rfl⟩

/-- A resolver whose name is taken leaves the registry as it is. -/
theorem Registry.Holds.skip {reg : Registry} {done : List Resolver} {r : Resolver}
    (h : reg.Holds done) (htaken : r.association ∈ done.map (·.association)) :
    reg.Holds (done ++ [r]) := by
  refine ⟨fun n => ?_, h.nodup⟩
  rw [h.get?_eq n, List.find?_append]
  cases hfind : done.find? (·.association == n) with
  | some r' => rfl
  | none =>
    -- no earlier resolver has `n`, so neither does `r`, whose name an earlier one has
    have hne : r.association ≠ n := by
      rintro rfl
      obtain ⟨r', hr', hname⟩ := List.mem_map.1 htaken
      have := List.find?_eq_none.1 hfind r' hr'
      simp [hname] at this
    simp [hne]

/-- A resolver with a new name is filed under it. -/
theorem Registry.Holds.insert {reg : Registry} {done : List Resolver} {r : Resolver}
    (h : reg.Holds done) (hnew : r.association ∉ done.map (·.association)) :
    Registry.Holds ⟨KeyMap.insert r.association (Registry.entryOf r) reg.entries⟩ (done ++ [r]) := by
  have hnone : reg.get? r.association = none := by
    rw [h.get?_eq]
    simpa [List.find?_eq_none] using hnew
  have hfind : done.find? (·.association == r.association) = none := by
    simpa [List.find?_eq_none] using hnew
  refine ⟨fun n => ?_, KeyMap.nodup_keys_insert _ _ _ hnone h.nodup⟩
  simp only [Registry.get?, KeyMap.get?_insert]
  rw [← Registry.get?, h.get?_eq n, List.find?_append]
  by_cases hn : n = r.association
  · subst hn
    simp [hfind]
  · have hne : (r.association == n) = false := by simp [Ne.symm hn]
    cases done.find? (·.association == n) <;> simp [hn, hne]

/-- One step of the loop on a resolver that passes its checks: the registry the resolvers so
far and this one leave, and a warning when its name was seen before. -/
theorem addAll_cons_of_passes {policy : DuplicatePolicy} {reg : Registry} {done : List Resolver}
    {r : Resolver} (rest : List Resolver) (notes : List Note) (h : reg.Holds done)
    (hname : ValidName r.association) (hfields : ∀ f ∈ r.fields, ValidName f)
    (hnew : policy = .reject → r.association ∉ done.map (·.association)) :
    ∃ reg', reg'.Holds (done ++ [r]) ∧
      Registry.addAll policy (r :: rest) reg notes =
        Registry.addAll policy rest reg'
          (notes ++ (if r.association ∈ done.map (·.association)
            then [Registry.duplicateNote r.association] else [])) := by
  have hvalid : Registry.validName r.association = true := (Registry.validName_iff _).2 hname
  have hnone : Registry.invalidField? r = none := (Registry.invalidField?_eq_none_iff r).2 hfields
  simp only [Registry.addAll, hvalid, Bool.not_true, hnone]
  by_cases htaken : r.association ∈ done.map (·.association)
  · -- only the first-wins policy lets a taken name through, and it drops the resolver
    have hcontains : reg.contains r.association = true := (h.contains_iff _).2 htaken
    cases policy with
    | reject => exact absurd htaken (hnew rfl)
    | firstWins => exact ⟨reg, h.skip htaken, by simp [hcontains, htaken]⟩
  · have hcontains : reg.contains r.association = false := by
      rw [← Bool.not_eq_true, h.contains_iff]
      exact htaken
    exact ⟨_, h.insert htaken, by simp [hcontains, htaken]⟩

theorem Admits.cons_right {policy : DuplicatePolicy} {done rest : List Resolver} {r : Resolver}
    (h : Admits policy (done ++ r :: rest)) :
    ValidName r.association ∧ (∀ f ∈ r.fields, ValidName f) ∧
      (policy = .reject → r.association ∉ done.map (·.association)) ∧
      Admits policy ((done ++ [r]) ++ rest) := by
  have hr := h.1 r (by simp)
  refine ⟨hr.1, hr.2, fun hp htaken => ?_, by simpa using h⟩
  -- under the reject policy the names are distinct, so none before `r` is its own
  have hnodup := h.2 hp
  rw [List.map_append, List.nodup_append] at hnodup
  exact hnodup.2.2 _ htaken _ (by simp) rfl

theorem Admits.snoc {policy : DuplicatePolicy} {done : List Resolver} {r : Resolver}
    (h : Admits policy done) (hname : ValidName r.association)
    (hfields : ∀ f ∈ r.fields, ValidName f)
    (hnew : policy = .reject → r.association ∉ done.map (·.association)) :
    Admits policy (done ++ [r]) := by
  refine ⟨fun r' hr' => ?_, fun hp => ?_⟩
  · rcases List.mem_append.1 hr' with hr' | hr'
    · exact h.1 r' hr'
    · rw [List.mem_singleton.1 hr']
      exact ⟨hname, hfields⟩
  · rw [List.map_append, List.nodup_append]
    refine ⟨h.2 hp, by simp, fun a ha b hb hab => ?_⟩
    rw [List.map_singleton, List.mem_singleton] at hb
    subst hb hab
    exact hnew hp ha

/-- Resolvers that do not all pass their checks have a first one that fails, after resolvers
that pass theirs. -/
theorem firstFails_of_not_admits {policy : DuplicatePolicy} :
    ∀ (rs done : List Resolver), Admits policy done → ¬ Admits policy (done ++ rs) →
      ∃ pre r post e, rs = pre ++ r :: post ∧ Admits policy (done ++ pre) ∧
        Fails policy (done ++ pre) r e
  | [], done, h, hnot => absurd (by simpa using h) hnot
  | r :: rest, done, h, hnot => by
    by_cases hname : ValidName r.association
    case neg => exact ⟨[], r, rest, _, rfl, by simpa using h, by simpa using Fails.name hname⟩
    cases hfield : Registry.invalidField? r with
    | some f =>
      -- the first bad field is where the search for one stops
      obtain ⟨hf, before, after, hsplit, hbefore⟩ := List.find?_eq_some_iff_append.1 hfield
      have hbad : ¬ ValidName f := by simpa [← Registry.validName_iff] using hf
      have hgood : ∀ g ∈ before, ValidName g := by
        intro g hg
        simpa [← Registry.validName_iff] using hbefore g hg
      exact ⟨[], r, rest, _, rfl, by simpa using h,
        by simpa using Fails.field hname hsplit hgood hbad⟩
    | none =>
      have hfields := (Registry.invalidField?_eq_none_iff r).1 hfield
      by_cases hdup : policy = .reject ∧ r.association ∈ done.map (·.association)
      · exact ⟨[], r, rest, _, rfl, by simpa using h,
          by simpa using Fails.duplicate hname hfields hdup.1 hdup.2⟩
      · have hsnoc := h.snoc hname hfields fun hp htaken => hdup ⟨hp, htaken⟩
        obtain ⟨pre, r', post, e, hrest, hpre, hfails⟩ :=
          firstFails_of_not_admits rest (done ++ [r]) hsnoc (by simpa using hnot)
        exact ⟨r :: pre, r', post, e, by rw [hrest]; rfl, by simpa using hpre,
          by simpa using hfails⟩

/-! ## Runs of the loop -/

/-- Resolvers that all pass their checks are added: the registry is what they all describe, and
a warning is noted for each whose name was seen before. -/
theorem addAll_of_admits {policy : DuplicatePolicy} :
    ∀ (rest done : List Resolver) (reg : Registry) (notes : List Note),
      reg.Holds done → Admits policy (done ++ rest) →
        ∃ reg', reg'.Holds (done ++ rest) ∧
          Registry.addAll policy rest reg notes =
            (.ok reg', notes ++ (repeatsAfter (done.map (·.association)) rest).map
              Registry.duplicateNote)
  | [], done, reg, notes, h, _ => ⟨reg, by simpa using h, by simp [Registry.addAll, repeatsAfter]⟩
  | r :: rest, done, reg, notes, h, hadmits => by
    obtain ⟨hname, hfields, hnew, hadmits'⟩ := hadmits.cons_right
    obtain ⟨reg₁, h₁, hstep⟩ := addAll_cons_of_passes rest notes h hname hfields hnew
    obtain ⟨reg', h', hrun⟩ := addAll_of_admits rest (done ++ [r]) reg₁ _ h₁ hadmits'
    refine ⟨reg', by simpa using h', ?_⟩
    rw [hstep, hrun]
    by_cases htaken : r.association ∈ done.map (·.association) <;>
      simp [repeatsAfter, htaken, List.map_append]

/-- After resolvers that pass their checks, the first resolver that fails one ends the loop with
its error. -/
theorem addAll_of_fails {policy : DuplicatePolicy} {r : Resolver} {e : RegistryError}
    (post : List Resolver) :
    ∀ (pre done : List Resolver) (reg : Registry) (notes : List Note),
      reg.Holds done → Admits policy (done ++ pre) → Fails policy (done ++ pre) r e →
        (Registry.addAll policy (pre ++ r :: post) reg notes).1 = .error e
  | [], done, reg, notes, h, _, hfails => by
    simp only [List.append_nil] at hfails
    cases hfails with
    | name hbad =>
      have hvalid : Registry.validName r.association = false := by
        simpa [← Registry.validName_iff] using hbad
      simp [Registry.addAll, hvalid]
    | field hname hsplit hbefore hf =>
      have hvalid : Registry.validName r.association = true := (Registry.validName_iff _).2 hname
      simp [Registry.addAll, hvalid, Registry.invalidField?_eq_some hsplit hbefore hf]
    | duplicate hname hfields hp htaken =>
      subst hp
      have hvalid : Registry.validName r.association = true := (Registry.validName_iff _).2 hname
      have hnone := (Registry.invalidField?_eq_none_iff r).2 hfields
      simp [Registry.addAll, hvalid, hnone, (h.contains_iff _).2 htaken]
  | p :: pre, done, reg, notes, h, hadmits, hfails => by
    obtain ⟨hname, hfields, hnew, hadmits'⟩ := hadmits.cons_right
    obtain ⟨reg₁, h₁, hstep⟩ := addAll_cons_of_passes (pre ++ r :: post) notes h hname hfields hnew
    rw [List.cons_append, hstep]
    exact addAll_of_fails post pre (done ++ [p]) reg₁ _ h₁ hadmits' (by simpa using hfails)

/-! ## Building -/

theorem Registry.build_of_addAll_error {policy : DuplicatePolicy} {rs : List Resolver}
    {e : RegistryError} (h : (Registry.addAll policy rs {} []).1 = .error e) :
    (Registry.build policy rs).1 = .error e := by
  unfold Registry.build
  split <;> simp_all

theorem Registry.build_of_addAll_ok {policy : DuplicatePolicy} {rs : List Resolver}
    {reg : Registry} {notes : List Note} (h : Registry.addAll policy rs {} [] = (.ok reg, notes)) :
    Registry.build policy rs = (.ok reg, notes ++ [Registry.builtNote reg]) := by
  simp [Registry.build, h]

/-- After resolvers that pass their checks, the first that fails one decides the error of the
build. -/
theorem Registry.build_of_first_fails {policy : DuplicatePolicy} {rs pre post : List Resolver}
    {r : Resolver} {e : RegistryError} (hrs : rs = pre ++ r :: post) (hadmits : Admits policy pre)
    (hfails : Fails policy pre r e) : (Registry.build policy rs).1 = .error e := by
  subst hrs
  exact Registry.build_of_addAll_error
    (addAll_of_fails post pre [] {} [] Registry.holds_empty (by simpa using hadmits)
      (by simpa using hfails))

/-- Resolvers that all pass their checks build the registry of their first resolvers by name. -/
theorem Registry.build_of_admits {policy : DuplicatePolicy} {rs : List Resolver}
    (hadmits : Admits policy rs) : ∃ reg,
      Registry.build policy rs =
        (.ok reg, (repeatsAfter [] rs).map Registry.duplicateNote ++ [Registry.builtNote reg]) ∧
      reg.names.Nodup ∧
      (∀ n, n ∈ reg.names ↔ ∃ r ∈ rs, r.association = n) ∧
      (∀ n, reg.get? n = (rs.find? (·.association == n)).map Registry.entryOf) ∧
      ∀ n e, reg.get? n = some e →
        e.name = n ∧ (∀ f, f ∈ e.allowed ↔ f ∈ e.resolver.fields) ∧
          ValidName n ∧ ∀ f ∈ e.allowed, ValidName f := by
  obtain ⟨reg, hholds, hrun⟩ :=
    addAll_of_admits rs [] {} [] Registry.holds_empty (by simpa using hadmits)
  rw [List.nil_append] at hholds
  refine ⟨reg, Registry.build_of_addAll_ok (by simpa using hrun), hholds.nodup,
    fun n => ?_, hholds.get?_eq, fun n e he => ?_⟩
  · rw [Registry.names, KeyMap.mem_keys_iff, ← Registry.get?, hholds.get?_eq]
    simp [List.find?_isSome]
  · -- the entry is that of a resolver with the name, which passed its checks
    obtain ⟨r, hr, rfl, rfl⟩ := hholds.mem_of_get? he
    obtain ⟨hname, hfields⟩ := hadmits.1 r hr
    exact ⟨rfl, fun f => mem_sortNames f r.fields, hname,
      fun f hf => hfields f ((mem_sortNames f r.fields).1 hf)⟩

/-- Building a registry from resolvers in registration order, under either policy. After
resolvers that all pass their checks, the first one that fails decides the error: a bad
association name; else its first bad allowed field; else, under the reject policy, a name an
earlier resolver has. The build succeeds exactly when every resolver passes. It then notes a
warning for each resolver whose name came earlier, then the registry built. That registry files
each name of the resolvers once, under the entry of the first resolver with that name (`entryOf`:
that name, the resolver's fields as the allowed set, the resolver itself), and its names and
allowed fields are valid. -/
theorem build_checks_in_order (policy : DuplicatePolicy) (rs : List Resolver) :
    (∀ pre r post e, rs = pre ++ r :: post → Admits policy pre → Fails policy pre r e →
      (Registry.build policy rs).1 = .error e) ∧
    ((∃ reg, (Registry.build policy rs).1 = .ok reg) ↔ Admits policy rs) ∧
    (Admits policy rs → ∃ reg,
      Registry.build policy rs =
        (.ok reg, (repeatsAfter [] rs).map Registry.duplicateNote ++ [Registry.builtNote reg]) ∧
      reg.names.Nodup ∧
      (∀ n, n ∈ reg.names ↔ ∃ r ∈ rs, r.association = n) ∧
      (∀ n, reg.get? n = (rs.find? (·.association == n)).map Registry.entryOf) ∧
      ∀ n e, reg.get? n = some e →
        e.name = n ∧ (∀ f, f ∈ e.allowed ↔ f ∈ e.resolver.fields) ∧
          ValidName n ∧ ∀ f ∈ e.allowed, ValidName f) := by
  refine ⟨fun _ _ _ _ => Registry.build_of_first_fails, ⟨?_, fun hadmits => ?_⟩,
    Registry.build_of_admits⟩
  · -- a build that does not fail has no resolver failing a check
    rintro ⟨reg, hbuilt⟩
    refine Classical.byContradiction fun hnot => ?_
    have hnone : Admits policy [] := ⟨by simp, fun _ => List.nodup_nil⟩
    obtain ⟨pre, r, post, e, hrs, hpre, hfail⟩ :=
      firstFails_of_not_admits rs [] hnone (by simpa using hnot)
    rw [Registry.build_of_first_fails hrs (by simpa using hpre) (by simpa using hfail)] at hbuilt
    cases hbuilt
  · obtain ⟨reg, hbuilt, -⟩ := Registry.build_of_admits hadmits
    exact ⟨reg, by rw [hbuilt]⟩

end FilterResolution.Virtual
