import FilterResolution.Proofs.PathMatch

/-! # A matched path and its parts

No name of a path split at its dots holds a dot. When a path matches a virtual association in a sound registry, its names are
the names of the parent path, then the association, then the field. Rebuilding the path with
`joinPath` from the three parts gives it back unless the parent path is empty and the path starts
with a dot: a single empty name before the association leaves the parent path empty, which
`joinPath` reads as no parent at all.
-/

namespace FilterResolution.Virtual

open FilterResolution.Filter

theorem not_mem_of_mem_splitOn (x : Char) :
    ∀ (xs l : List Char), l ∈ xs.splitOn x → x ∉ l
  | [], l, h => by
    simp only [List.splitOn_nil, List.mem_singleton] at h
    subst h
    simp
  | c :: cs, l, h => by
    have ih := not_mem_of_mem_splitOn x cs
    rw [List.splitOn_cons_eq_if_modifyHead] at h
    split at h
    · rcases List.mem_cons.1 h with rfl | h
      · simp
      · exact ih l h
    · rename_i hc
      -- the first name gains `c`, which is no dot; the others are names of `cs`
      have hne := List.splitOn_ne_nil x cs
      obtain ⟨first, rest, hsplit⟩ := List.exists_cons_of_ne_nil hne
      rw [hsplit, List.modifyHead_cons] at h
      rcases List.mem_cons.1 h with rfl | h
      · have hfirst := ih first (by simp [hsplit])
        simp only [List.mem_cons, not_or]
        exact ⟨fun he => hc (by simp [he]), hfirst⟩
      · exact ih l (by simp [hsplit, h])

theorem dot_not_mem_of_mem_splitPath {path name : String} (h : name ∈ splitPath path) :
    '.' ∉ name.toList := by
  obtain ⟨l, hl, rfl⟩ := List.mem_map.1 h
  simpa using not_mem_of_mem_splitOn '.' path.toList l hl

variable {reg : Registry}

/-- A path that matches is its parent path's names, then the association, then the field. -/
theorem parse_ok_some_names (hs : reg.Sound) {path : String} {vf : VirtualField}
    (h : VirtualField.parse reg path = .ok (some vf)) :
    ∃ mid, splitPath path = mid ++ [vf.association, vf.field] ∧
      vf.parentPath = ".".intercalate mid := by
  obtain ⟨before, name, e, hsplit, -, hname, -, hvf⟩ := parse_eq_ok_some h
  have hassoc : vf.association = name := by
    rw [hvf]
    exact hs name e hname
  exact ⟨before, by rw [hsplit, hassoc], by rw [hvf]⟩

theorem joinPath_of_ne_empty {base : String} (name : String) (h : base ≠ "") :
    joinPath base name = base ++ "." ++ name := by
  simp [joinPath, String.isEmpty_iff, h]

@[simp] theorem joinPath_empty (name : String) : joinPath "" name = name := rfl

@[simp] theorem length_dot : ".".length = 1 := by decide

theorem ne_of_length_ne {s t : String} (h : s.length ≠ t.length) : s ≠ t :=
  fun he => h (he ▸ rfl)

/-- Rebuilding a matched path from its parent path, association and field gives the path back
exactly when the parent path is not empty or the path does not start with a dot. -/
theorem parse_rejoin_iff (hs : reg.Sound) {path : String} {vf : VirtualField}
    (h : VirtualField.parse reg path = .ok (some vf)) :
    path = joinPath (joinPath vf.parentPath vf.association) vf.field ↔
      ¬ (vf.parentPath = "" ∧ path.toList.head? = some '.') := by
  obtain ⟨mid, hnames, hpp⟩ := parse_ok_some_names hs h
  have hpath : path = ".".intercalate (mid ++ [vf.association, vf.field]) := by
    rw [← hnames, intercalate_splitPath]
  have hassoc : '.' ∉ vf.association.toList := by
    have hmem : vf.association ∈ splitPath path := by
      rw [hnames]
      simp
    exact dot_not_mem_of_mem_splitPath hmem
  by_cases hempty : vf.parentPath = ""
  · rw [hempty, joinPath_empty]
    -- an empty parent path: no name before the association, or one empty name
    rcases mid with _ | ⟨m, _ | ⟨m', rest⟩⟩
    · have hp : path = vf.association ++ "." ++ vf.field := by simp [hpath]
      by_cases ha : vf.association = ""
      · have hhead : path.toList.head? = some '.' := by simp [hp, ha]
        refine iff_of_false ?_ (by simp [hhead])
        rw [hp, ha, joinPath_empty]
        exact ne_of_length_ne (by simp)
      · have hne : vf.association.toList ≠ [] := by simpa using ha
        obtain ⟨c, cs, hc⟩ := List.exists_cons_of_ne_nil hne
        have hcdot : c ≠ '.' := fun he => hassoc (by simp [hc, he])
        have hhead : path.toList.head? ≠ some '.' := by simp [hp, hc, hcdot]
        refine iff_of_true ?_ (by simp [hhead])
        rw [hp, joinPath_of_ne_empty _ ha]
    · have hm : m = "" := by simpa [hpp] using hempty
      have hp : path = "." ++ (vf.association ++ "." ++ vf.field) := by
        simp [hpath, hm, String.append_assoc]
      have hhead : path.toList.head? = some '.' := by simp [hp]
      refine iff_of_false ?_ (by simp [hhead])
      rw [hp]
      by_cases ha : vf.association = ""
      · rw [ha, joinPath_empty]
        exact ne_of_length_ne (by simp; omega)
      · rw [joinPath_of_ne_empty _ ha]
        exact ne_of_length_ne (by simp)
    · have hne : ".".intercalate (m :: m' :: rest) ≠ "" := by
        rw [String.intercalate_cons_cons]
        exact ne_of_length_ne (by simp)
      exact absurd (hpp ▸ hempty) hne
  · -- a non-empty parent path is joined back with its dot
    have hmid : mid ≠ [] := by
      rintro rfl
      exact hempty (by simp [hpp])
    have hp : path = vf.parentPath ++ "." ++ (vf.association ++ "." ++ vf.field) := by
      rw [hpath, String.intercalate_append_of_ne_nil hmid (by simp), hpp]
      simp
    have hjoin : joinPath vf.parentPath vf.association ≠ "" := by
      rw [joinPath_of_ne_empty _ hempty]
      exact ne_of_length_ne (by simp)
    refine iff_of_true ?_ (by simp [hempty])
    rw [hp, joinPath_of_ne_empty _ hjoin, joinPath_of_ne_empty _ hempty]
    simp [String.append_assoc]

theorem parse_rejoin_iff_leading_dot :
    Registry.Sound ⟨[("bar", ⟨"bar", ["id"], ⟨"bar", ["id"], fun _ => .ok fun _ => .ok [],
      fun ps => (ps, none)⟩⟩)]⟩ ∧
    VirtualField.parse ⟨[("bar", ⟨"bar", ["id"], ⟨"bar", ["id"], fun _ => .ok fun _ => .ok [],
      fun ps => (ps, none)⟩⟩)]⟩ ".bar.id" = .ok (some ⟨"", "bar", "id"⟩) ∧
    (".bar.id" = joinPath (joinPath "" "bar") "id" ↔
      ¬ ("" = "" ∧ ".bar.id".toList.head? = some '.')) :=
  have hs : Registry.Sound ⟨[("bar", ⟨"bar", ["id"], ⟨"bar", ["id"], fun _ => .ok fun _ => .ok [],
      fun ps => (ps, none)⟩⟩)]⟩ := Registry.sound_of_entries (by decide)
  have h : VirtualField.parse ⟨[("bar", ⟨"bar", ["id"], ⟨"bar", ["id"],
      fun _ => .ok fun _ => .ok [], fun ps => (ps, none)⟩⟩)]⟩ ".bar.id" =
        .ok (some ⟨"", "bar", "id"⟩) := rfl
  ⟨hs, h, parse_rejoin_iff hs h⟩

/-- A path whose single name before the association is empty matches with an empty parent path,
so joining the parts loses its leading dot, and the resolver looking the matched predicate up
on its virtual field does not find it. -/
theorem parse_leading_dot_not_rejoined :
    VirtualField.parse ⟨[("bar", ⟨"bar", ["id"], ⟨"bar", ["id"], fun _ => .ok fun _ => .ok [],
      fun ps => (ps, none)⟩⟩)]⟩ ".bar.id" = .ok (some ⟨"", "bar", "id"⟩) ∧
    ".bar.id" ≠ joinPath (joinPath "" "bar") "id" ∧
    Context.predicatesOnVirtualField
      ⟨⟨.root, "", "bar", [⟨".bar.id", .equals (.int 1)⟩]⟩, []⟩ "id" = [] :=
  ⟨rfl, by decide, by decide⟩

end FilterResolution.Virtual
