import FilterResolution.Proofs.Registry
import FilterResolution.Probe.FieldPath
import Mathlib

/-! # Matching a path, name by name

The scan of a path's names stops at the first registered association, having counted the bytes
of the names before it, each with the dot after it. Less the last dot, those are the bytes of the
names before it joined by dots, which start the path; so the offset the parent path is cut at
never goes below zero, ends on a character boundary of the path, and cuts out exactly those
names. What matching gives is then read off the path's names: an ordinary field when no name is
registered; otherwise an error unless exactly one name, an allowed field, follows the first
registered one.
-/

namespace FilterResolution.Virtual

open FilterResolution.Filter

theorem intercalate_splitPath (path : String) : ".".intercalate (splitPath path) = path := by
  apply String.ext
  simp [splitPath, pathSeparator, Function.comp_def]

@[simp] theorem utf8Size_pathSeparator : pathSeparator.utf8Size = 1 := rfl

/-! ## Bytes and slices -/

/-- The bytes the names take up in a path, each with the dot after it. -/
def namesBytes : List String → Nat
  | [] => 0
  | name :: rest => name.utf8ByteSize + pathSeparator.utf8Size + namesBytes rest

theorem namesBytes_eq_zero_iff (names : List String) : namesBytes names = 0 ↔ names = [] := by
  cases names with
  | nil => simp [namesBytes]
  | cons name rest => simp [namesBytes]

/-- Less its last dot, what names take up is their text joined by dots. -/
theorem namesBytes_eq_intercalate {names : List String} (h : names ≠ []) :
    namesBytes names = (".".intercalate names).utf8ByteSize + pathSeparator.utf8Size := by
  induction names with
  | nil => exact absurd rfl h
  | cons name rest ih =>
    cases rest with
    | nil => simp [namesBytes]
    | cons next more =>
      rw [namesBytes, ih (List.cons_ne_nil _ _), String.intercalate_cons_cons]
      simp only [String.utf8ByteSize_append, utf8Size_pathSeparator]
      have hdot : ".".utf8ByteSize = 1 := rfl
      omega

theorem extract_go₂_append (l rest : List Char) (k : Nat) :
    String.Pos.Raw.extract.go₂ (l ++ rest) ⟨k⟩ ⟨k + (String.ofList l).utf8ByteSize⟩ = l := by
  induction l generalizing k with
  | nil => cases rest <;> simp [String.Pos.Raw.extract.go₂]
  | cons c cs ih =>
    have hpos := c.utf8Size_pos
    have hne : (⟨k⟩ : String.Pos.Raw) ≠ ⟨k + (String.ofList (c :: cs)).utf8ByteSize⟩ := by
      intro h
      have hidx := congrArg String.Pos.Raw.byteIdx h
      simp at hidx
      omega
    simp only [List.cons_append, String.Pos.Raw.extract.go₂, if_neg hne]
    have hsize : k + (String.ofList (c :: cs)).utf8ByteSize =
        (k + c.utf8Size) + (String.ofList cs).utf8ByteSize := by
      simp
      omega
    rw [hsize, String.Pos.Raw.add_char_eq]
    exact congrArg (c :: ·) (ih (k + c.utf8Size))

theorem extract_go₁_zero (l : List Char) (e : String.Pos.Raw) :
    String.Pos.Raw.extract.go₁ l 0 0 e = String.Pos.Raw.extract.go₂ l 0 e := by
  cases l with
  | nil => rfl
  | cons c cs => simp [String.Pos.Raw.extract.go₁]

/-- The text before byte `n` takes characters from the start until their bytes reach `n`. -/
theorem textBefore_eq (s : String) (n : Nat) :
    textBefore s n = String.ofList (String.Pos.Raw.extract.go₂ s.toList 0 ⟨n⟩) := by
  by_cases hn : n = 0
  · subst hn
    cases s.toList with
    | nil => simp [textBefore, String.Pos.Raw.extract, String.Pos.Raw.extract.go₂]
    | cons c cs => simp [textBefore, String.Pos.Raw.extract, String.Pos.Raw.extract.go₂]
  · simp only [textBefore, String.Pos.Raw.extract]
    rw [if_neg (by simp; omega), extract_go₁_zero]

/-- The text before the bytes of a first part is that part. -/
theorem textBefore_append (a b : String) : textBefore (a ++ b) a.utf8ByteSize = a := by
  have hgo := extract_go₂_append a.toList b.toList 0
  rw [String.ofList_toList, Nat.zero_add] at hgo
  rw [textBefore_eq, String.toList_append]
  exact (congrArg String.ofList hgo).trans String.ofList_toList

/-! ## The scan -/

variable {reg : Registry}

theorem firstRegistered_append {before rest : List String} {name : String} {e : Entry}
    (hbefore : ∀ b ∈ before, reg.get? b = none) (hname : reg.get? name = some e) (consumed : Nat) :
    firstRegistered reg consumed (before ++ name :: rest) =
      some (consumed + namesBytes before, e, rest) := by
  induction before generalizing consumed with
  | nil => simp [firstRegistered, hname, namesBytes]
  | cons b bs ih =>
    have hb : reg.get? b = none := hbefore b (List.mem_cons_self ..)
    simp only [List.cons_append, firstRegistered, hb]
    rw [ih (fun b' hb' => hbefore b' (List.mem_cons_of_mem _ hb'))]
    simp only [namesBytes, Nat.add_assoc]

theorem firstRegistered_of_unregistered {names : List String}
    (h : ∀ n ∈ names, reg.get? n = none) (consumed : Nat) :
    firstRegistered reg consumed names = none := by
  induction names generalizing consumed with
  | nil => rfl
  | cons n rest ih =>
    simp only [firstRegistered, h n (List.mem_cons_self ..)]
    exact ih (fun n' hn' => h n' (List.mem_cons_of_mem _ hn')) _

/-- A scan that stops has passed only unregistered names, and counted their bytes. -/
theorem firstRegistered_eq_some {names rest : List String} {consumed consumed' : Nat} {e : Entry}
    (h : firstRegistered reg consumed names = some (consumed', e, rest)) :
    ∃ before name, names = before ++ name :: rest ∧ (∀ b ∈ before, reg.get? b = none) ∧
      reg.get? name = some e ∧ consumed' = consumed + namesBytes before := by
  induction names generalizing consumed with
  | nil => cases h
  | cons n ns ih =>
    simp only [firstRegistered] at h
    split at h
    · rename_i hn
      obtain ⟨before, name, hsplit, hbefore, hname, hbytes⟩ := ih h
      refine ⟨n :: before, name, by simp [hsplit], ?_, hname, ?_⟩
      · intro b hb
        rcases List.mem_cons.1 hb with rfl | hb
        · exact hn
        · exact hbefore b hb
      · rw [hbytes, namesBytes]
        omega
    · rename_i entry hn
      simp only [Option.some.injEq, Prod.mk.injEq] at h
      obtain ⟨rfl, rfl, rfl⟩ := h
      exact ⟨[], n, rfl, by simp, hn, by simp [namesBytes]⟩

theorem firstRegistered_isSome (names : List String) (consumed : Nat) :
    (firstRegistered reg consumed names).isSome = names.any reg.contains := by
  induction names generalizing consumed with
  | nil => rfl
  | cons n rest ih =>
    simp only [firstRegistered, List.any_cons, Registry.contains_eq]
    cases reg.get? n with
    | none => simpa using ih _
    | some e => rfl

/-! ## What matching gives -/

/-- The parent path cut out at a match is the names before it, joined by dots. -/
theorem parentPath_cut {path name : String} {before rest : List String}
    (hsplit : splitPath path = before ++ name :: rest) (hbefore : before ≠ []) :
    (⟨namesBytes before - pathSeparator.utf8Size⟩ : String.Pos.Raw).IsValid path ∧
      textBefore path (namesBytes before - pathSeparator.utf8Size) = ".".intercalate before := by
  have hpath : path = ".".intercalate before ++ ("." ++ ".".intercalate (name :: rest)) := by
    rw [← intercalate_splitPath path, hsplit,
      String.intercalate_append_of_ne_nil hbefore (List.cons_ne_nil _ _), String.append_assoc]
  have hoffset : namesBytes before - pathSeparator.utf8Size = (".".intercalate before).utf8ByteSize := by
    rw [namesBytes_eq_intercalate hbefore]
    omega
  rw [hoffset]
  refine ⟨String.Pos.Raw.isValid_iff_exists_append.2 ⟨_, _, hpath, rfl⟩, ?_⟩
  rw [hpath, textBefore_append]

theorem parse_of_unregistered {path : String} (h : ∀ n ∈ splitPath path, reg.get? n = none) :
    VirtualField.parse reg path = .ok none := by
  simp [VirtualField.parse, firstRegistered_of_unregistered h]

section Split

variable {path name : String} {before rest : List String} {e : Entry}

/-- The parent path a match cuts out: nothing before the first name, else the names before. -/
theorem parentPath_of_split (hsplit : splitPath path = before ++ name :: rest) :
    (if namesBytes before = 0 then ""
      else textBefore path (namesBytes before - pathSeparator.utf8Size)) =
      ".".intercalate before := by
  by_cases hb : before = []
  · subst hb
    simp [namesBytes]
  · rw [if_neg (by rwa [namesBytes_eq_zero_iff]), (parentPath_cut hsplit hb).2]

/-- Matching a path whose first registered name, after the names `before`, is followed by one
name: the match, when the entry allows that field. -/
theorem parse_of_split_field {field : String} (hsplit : splitPath path = before ++ [name, field])
    (hbefore : ∀ b ∈ before, reg.get? b = none) (hname : reg.get? name = some e) :
    VirtualField.parse reg path =
      if e.allows field then .ok (some ⟨".".intercalate before, e.name, field⟩)
      else .error (.invalidFilterField field e.name) := by
  simp only [VirtualField.parse, hsplit, firstRegistered_append hbefore hname, Nat.zero_add]
  rw [parentPath_of_split hsplit]

/-- Matching a path whose first registered name is not followed by exactly one name. -/
theorem parse_of_split_nested (hsplit : splitPath path = before ++ name :: rest)
    (hbefore : ∀ b ∈ before, reg.get? b = none) (hname : reg.get? name = some e)
    (hrest : rest.length ≠ 1) :
    VirtualField.parse reg path = .error (.nestedFilters path) := by
  simp only [VirtualField.parse, hsplit, firstRegistered_append hbefore hname]
  match rest, hrest with
  | [], _ => rfl
  | _ :: _ :: _, _ => rfl

end Split

/-- A scan that stops at a registered name gives a match only when one name follows it and its
entry allows that name as a field; the match is then made of the names before, the entry's name
and the field. -/
theorem parse_ok_of_firstRegistered {path : String} {consumed : Nat} {e : Entry}
    {rest : List String} {r : Option VirtualField}
    (hfirst : firstRegistered reg 0 (splitPath path) = some (consumed, e, rest))
    (h : VirtualField.parse reg path = .ok r) :
    ∃ before name field, splitPath path = before ++ [name, field] ∧
      (∀ b ∈ before, reg.get? b = none) ∧ reg.get? name = some e ∧ e.allows field = true ∧
      r = some ⟨".".intercalate before, e.name, field⟩ := by
  obtain ⟨before, name, hsplit, hbefore, hname, -⟩ := firstRegistered_eq_some hfirst
  by_cases hone : rest.length = 1
  · obtain ⟨field, rfl⟩ := List.length_eq_one_iff.1 hone
    rw [parse_of_split_field hsplit hbefore hname] at h
    by_cases hallow : e.allows field = true
    · simp only [hallow, if_true, Except.ok.injEq] at h
      exact ⟨before, name, field, hsplit, hbefore, hname, hallow, h.symm⟩
    · simp [hallow] at h
  · rw [parse_of_split_nested hsplit hbefore hname hone] at h
    cases h

theorem parse_ok_none {path : String} (h : VirtualField.parse reg path = .ok none) :
    firstRegistered reg 0 (splitPath path) = none := by
  cases hfirst : firstRegistered reg 0 (splitPath path) with
  | none => rfl
  | some found =>
    obtain ⟨consumed, e, rest⟩ := found
    obtain ⟨before, name, field, -, -, -, -, hmatch⟩ := parse_ok_of_firstRegistered hfirst h
    cases hmatch

/-- A path that matches is the names of its parent path, none of them registered, then a
registered name, then an allowed field of that name's entry. -/
theorem parse_eq_ok_some {path : String} {vf : VirtualField}
    (h : VirtualField.parse reg path = .ok (some vf)) :
    ∃ before name e, splitPath path = before ++ [name, vf.field] ∧
      (∀ b ∈ before, reg.get? b = none) ∧ reg.get? name = some e ∧ e.allows vf.field = true ∧
      vf = ⟨".".intercalate before, e.name, vf.field⟩ := by
  cases hfirst : firstRegistered reg 0 (splitPath path) with
  | none => simp [VirtualField.parse, hfirst] at h
  | some found =>
    obtain ⟨consumed, e, rest⟩ := found
    obtain ⟨before, name, field, hsplit, hbefore, hname, hallow, hvf⟩ :=
      parse_ok_of_firstRegistered hfirst h
    cases hvf
    exact ⟨before, name, e, hsplit, hbefore, hname, hallow, rfl⟩

/-- Matching a path against a built registry, read off its names, `name` being the first
registered one and `before` the names before it. With no registered name the path is an ordinary
field; unless exactly one name follows `name` it is refused as nested; unless that name is an
allowed field it is refused as such; otherwise the match is `before` joined by dots, `name` and
the field. The scan reaches `name` having counted the bytes of `before` with a dot after each:
none when `before` is empty, else at least one, and less the last dot an offset on a character
boundary of the path, before which stand exactly the names of `before` joined by dots. -/
theorem parse_first_registered {policy : DuplicatePolicy} {resolvers : List Resolver}
    (hbuilt : (Registry.build policy resolvers).1 = .ok reg) (path : String) :
    ((∀ name ∈ splitPath path, reg.get? name = none) → VirtualField.parse reg path = .ok none) ∧
    ∀ before name rest e, splitPath path = before ++ name :: rest →
      (∀ b ∈ before, reg.get? b = none) → reg.get? name = some e →
      (before.length + 2 ≠ (splitPath path).length →
        VirtualField.parse reg path = .error (.nestedFilters path)) ∧
      (∀ field, rest = [field] →
        (e.allows field = false →
          VirtualField.parse reg path = .error (.invalidFilterField field name)) ∧
        (e.allows field = true →
          VirtualField.parse reg path = .ok (some ⟨".".intercalate before, name, field⟩))) ∧
      ∃ consumed, firstRegistered reg 0 (splitPath path) = some (consumed, e, rest) ∧
        (consumed = 0 ↔ before = []) ∧
        (consumed ≠ 0 → pathSeparator.utf8Size ≤ consumed ∧
          (⟨consumed - pathSeparator.utf8Size⟩ : String.Pos.Raw).IsValid path ∧
          textBefore path (consumed - pathSeparator.utf8Size) = ".".intercalate before) := by
  have hs := Registry.build_sound hbuilt
  refine ⟨parse_of_unregistered, fun before name rest e hsplit hbefore hname => ?_⟩
  have hename : e.name = name := hs name e hname
  have hlen : (splitPath path).length = before.length + 1 + rest.length := by
    rw [hsplit, List.length_append, List.length_cons]
    omega
  refine ⟨fun hnested => parse_of_split_nested hsplit hbefore hname (by omega), ?_, ?_⟩
  · rintro field rfl
    rw [parse_of_split_field hsplit hbefore hname, hename]
    exact ⟨fun hallow => by simp [hallow], fun hallow => by simp [hallow]⟩
  · -- the offset at the match is the bytes of `before`, each with its dot
    refine ⟨namesBytes before, ?_, namesBytes_eq_zero_iff before, fun hne => ?_⟩
    · rw [hsplit, firstRegistered_append hbefore hname, Nat.zero_add]
    have hbefore_ne : before ≠ [] := fun h => hne ((namesBytes_eq_zero_iff before).2 h)
    obtain ⟨hvalid, hcut⟩ := parentPath_cut hsplit hbefore_ne
    refine ⟨?_, hvalid, hcut⟩
    rw [namesBytes_eq_intercalate hbefore_ne]
    omega

/-- The registry the path probe builds from `bar` and `stock`. -/
def probeRegistry : Registry :=
  ⟨[("bar", ⟨"bar", ["active", "id"], Probe.stub "bar"⟩),
    ("stock", ⟨"stock", ["active", "id"], Probe.stub "stock"⟩)]⟩

theorem parse_first_registered_multibyte :
    (Registry.build .reject [Probe.stub "bar", Probe.stub "stock"]).1 = .ok probeRegistry ∧
    ((∀ name ∈ splitPath "ördér.bar.id", probeRegistry.get? name = none) →
      VirtualField.parse probeRegistry "ördér.bar.id" = .ok none) ∧
    ∀ before name rest e, splitPath "ördér.bar.id" = before ++ name :: rest →
      (∀ b ∈ before, probeRegistry.get? b = none) → probeRegistry.get? name = some e →
      (before.length + 2 ≠ (splitPath "ördér.bar.id").length →
        VirtualField.parse probeRegistry "ördér.bar.id" = .error (.nestedFilters "ördér.bar.id")) ∧
      (∀ field, rest = [field] →
        (e.allows field = false → VirtualField.parse probeRegistry "ördér.bar.id" =
          .error (.invalidFilterField field name)) ∧
        (e.allows field = true → VirtualField.parse probeRegistry "ördér.bar.id" =
          .ok (some ⟨".".intercalate before, name, field⟩))) ∧
      ∃ consumed, firstRegistered probeRegistry 0 (splitPath "ördér.bar.id") =
          some (consumed, e, rest) ∧
        (consumed = 0 ↔ before = []) ∧
        (consumed ≠ 0 → pathSeparator.utf8Size ≤ consumed ∧
          (⟨consumed - pathSeparator.utf8Size⟩ : String.Pos.Raw).IsValid "ördér.bar.id" ∧
          textBefore "ördér.bar.id" (consumed - pathSeparator.utf8Size) =
            ".".intercalate before) :=
  have hbuilt : (Registry.build .reject [Probe.stub "bar", Probe.stub "stock"]).1 =
      .ok probeRegistry := by
    simp +decide [Registry.build, Registry.addAll, Registry.validName, Registry.invalidField?,
      Registry.entryOf, Probe.stub, probeRegistry, KeyMap.insert, sortNames, insertName]
  ⟨hbuilt, parse_first_registered hbuilt "ördér.bar.id"⟩

end FilterResolution.Virtual
