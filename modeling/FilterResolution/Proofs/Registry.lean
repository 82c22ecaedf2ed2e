import FilterResolution.Virtual.Registry

/-! # Registries as built

A registry is built from resolvers in registration order. Whatever the resolvers and the
duplicate policy, a built registry files each entry under its own name, so looking an
association up by the name an entry reports finds that entry again.
-/

namespace FilterResolution.Virtual

open FilterResolution

theorem KeyMap.get?_insert {α : Type} (key k : String) (v : α) (m : List (String × α)) :
    KeyMap.get? k (KeyMap.insert key v m) = if k = key then some v else KeyMap.get? k m := by
  induction m with
  | nil => simp [KeyMap.insert, KeyMap.get?]
  | cons kw rest ih =>
    obtain ⟨k', w⟩ := kw
    simp only [KeyMap.insert]
    split
    · simp [KeyMap.get?]
    · split
      · rename_i hkey
        subst hkey
        by_cases hk : k = key <;> simp [KeyMap.get?, hk]
      · rename_i hkey
        by_cases hk : k = k'
        · subst hk
          have hne : k ≠ key := fun h => hkey (h ▸ rfl)
          simp [KeyMap.get?, hne]
        · simp [KeyMap.get?, hk, ih]

theorem Registry.contains_eq (reg : Registry) (name : String) :
    reg.contains name = (reg.get? name).isSome := rfl

/-- Every entry of the registry is filed under its own name. -/
def Registry.Sound (reg : Registry) : Prop :=
  ∀ name e, reg.get? name = some e → e.name = name

theorem Registry.sound_empty : Registry.Sound {} := by
  intro name e h
  cases h

theorem Registry.addAll_sound (policy : DuplicatePolicy) (rs : List Resolver) :
    ∀ (reg : Registry) (notes : List Note) (reg' : Registry),
      reg.Sound → (addAll policy rs reg notes).1 = .ok reg' → reg'.Sound := by
  induction rs with
  | nil =>
    intro reg notes reg' hs h
    simp only [addAll, Except.ok.injEq] at h
    exact h ▸ hs
  | cons r rest ih =>
    intro reg notes reg' hs h
    simp only [addAll] at h
    split at h
    · cases h
    · split at h
      · cases h
      · split at h
        · split at h
          · cases h
          · exact ih reg _ reg' hs h
        · refine ih _ notes reg' ?_ h
          -- the new entry is filed under the resolver's association, which is its name
          intro name e he
          simp only [Registry.get?, KeyMap.get?_insert] at he
          split at he
          · rename_i hname
            cases he
            exact hname.symm
          · exact hs name e he

/-- A built registry files each entry under its own name. -/
theorem Registry.build_sound {policy : DuplicatePolicy} {resolvers : List Resolver} {reg : Registry}
    (h : (Registry.build policy resolvers).1 = .ok reg) : reg.Sound := by
  simp only [Registry.build] at h
  split at h
  · cases h
  · rename_i reg' notes' hadd
    simp only [Except.ok.injEq] at h
    exact h ▸ addAll_sound policy resolvers {} [] reg' sound_empty (by rw [hadd])

/-- A registry whose every entry is filed under its own name is sound. -/
theorem Registry.sound_of_entries {reg : Registry} (h : ∀ kv ∈ reg.entries, kv.2.name = kv.1) :
    reg.Sound := by
  obtain ⟨entries⟩ := reg
  induction entries with
  | nil =>
    intro name e he
    cases he
  | cons kv rest ih =>
    intro name e he
    simp only [Registry.get?, KeyMap.get?] at he
    split at he
    · rename_i hname
      cases he
      exact hname ▸ h kv (List.mem_cons_self ..)
    · exact ih (fun kv' hkv' => h kv' (List.mem_cons_of_mem _ hkv')) name e he

/-- Looking up the name of a found entry finds it again. -/
theorem Registry.Sound.get?_name {reg : Registry} (hs : reg.Sound) {name : String} {e : Entry}
    (h : reg.get? name = some e) : reg.get? e.name = some e := by
  rw [hs name e h]
  exact h

end FilterResolution.Virtual
