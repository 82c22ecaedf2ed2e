import FilterResolution.Proofs.FilterDocs
import FilterResolution.Proofs.JsonStreams

/-! # The JSON text of a specification read back

A specification's text is read member by member: its filters as a list of nodes, each read as a
whole document first, its associations as a map of specifications, and its fast-path flag. The
text comes back as the specification with every range bound that holds `null` left out, since
that bound is written `null` and read as absent.
-/

namespace FilterResolution.Filter

open FilterResolution.Json

theorem Node.toDocAll_eq_map : ∀ ns : List Node, Node.toDocAll ns = ns.map Node.toDoc := by
  intro ns
  induction ns with
  | nil => rfl
  | cons n ns ih => simp [Node.toDocAll, ih]

theorem Node.dropNullBoundsAll_eq_map :
    ∀ ns : List Node, Node.dropNullBoundsAll ns = ns.map Node.dropNullBounds := by
  intro ns
  induction ns with
  | nil => rfl
  | cons n ns ih => simp [Node.dropNullBoundsAll, ih]

theorem Node.wellFormed_of_mem : ∀ {ns : List Node} {n : Node}, Node.wellFormedAll ns = true →
    n ∈ ns → n.wellFormed = true
  | m :: ns, n, h, hn => by
    simp only [Node.wellFormedAll, Bool.and_eq_true] at h
    rcases List.mem_cons.1 hn with rfl | hn
    · exact h.1
    · exact Node.wellFormed_of_mem h.2 hn

/-- A node's text is read back as the node, its null range bounds left out. -/
theorem nodeText_readsAs {n : Node} {room : Nat} (hwf : n.wellFormed = true)
    (hfloats : ∀ x ∈ (Node.toDoc n).floats, Doc.ReadsBack x) (hdepth : (Node.toDoc n).depth < room) :
    ReadsAs nodeText room (Node.toDoc n) n.dropNullBounds := by
  refine ⟨hfloats, fun rest hr => ?_⟩
  have hfuel : (Node.toDoc n).render.length ≤ fuelFor ((Node.toDoc n).render.toList ++ rest) := by
    simp only [fuelFor, List.length_append, String.length_toList]
    omega
  simp [nodeText, readDoc_render _ _ room rest hfloats hdepth hfuel hr, bind, Except.bind,
    nodeOfDoc_readBack_toDoc n hwf, pure, Except.pure]

namespace Spec

mutual
/-- The specification with every range bound that holds `null` left out, at every depth. -/
def dropNullBounds : Spec → Spec
  | ⟨filters, associations, fastPath⟩ =>
    ⟨Node.dropNullBoundsAll filters, dropNullBoundsAssociations associations, fastPath⟩

def dropNullBoundsAssociations : List (String × Spec) → List (String × Spec)
  | [] => []
  | (name, sub) :: rest => (name, dropNullBounds sub) :: dropNullBoundsAssociations rest
end

mutual
/-- A specification as the program holds one: its values well formed and its association names
strictly ascending, at every depth. -/
def wellFormed : Spec → Bool
  | ⟨filters, associations, _⟩ =>
    Node.wellFormedAll filters && decide ((associations.map (·.1)).Pairwise (· < ·)) &&
      wellFormedAssociations associations

def wellFormedAssociations : List (String × Spec) → Bool
  | [] => true
  | (_, sub) :: rest => wellFormed sub && wellFormedAssociations rest
end

theorem associationsToDoc_eq_map :
    ∀ as : List (String × Spec), associationsToDoc as = as.map fun e => (e.1, toDoc e.2)
  | [] => rfl
  | (k, s) :: as => by simp [associationsToDoc, associationsToDoc_eq_map as]

theorem dropNullBoundsAssociations_eq_map :
    ∀ as : List (String × Spec), dropNullBoundsAssociations as = as.map fun e => (e.1, e.2.dropNullBounds)
  | [] => rfl
  | (k, s) :: as => by simp [dropNullBoundsAssociations, dropNullBoundsAssociations_eq_map as]

theorem toDoc_mk (fs : List Node) (as : List (String × Spec)) (b : Bool) :
    toDoc ⟨fs, as, b⟩ = .object [("filters", .array (fs.map Node.toDoc)),
      ("associations", .object (as.map fun e => (e.1, toDoc e.2))), ("fast_path", .bool b)] := by
  simp [toDoc, Node.toDocAll_eq_map, associationsToDoc_eq_map]

mutual
/-- The text of a specification is read back as the specification with its null range bounds
left out, given room beyond its depth and fuel for its associations. -/
theorem specText_render : ∀ (s : Spec) (fuel room : Nat) (rest : List Char), s.wellFormed = true →
    (∀ x ∈ s.toDoc.floats, Doc.ReadsBack x) → s.toDoc.depth < room → room ≤ 2 * fuel →
      specText fuel room (s.toDoc.render.toList ++ rest) = .ok (s.dropNullBounds, rest)
  | ⟨fs, as, b⟩ => by
    intro fuel room rest hwf hfloats hdepth hfuel
    simp only [wellFormed, Bool.and_eq_true, decide_eq_true_eq] at hwf
    obtain ⟨⟨hfs, hsorted⟩, has⟩ := hwf
    rw [toDoc_mk] at hfloats hdepth ⊢
    simp only [Doc.depth, Doc.depthMembers] at hdepth
    simp only [Doc.floats, Doc.floatsMembers, List.mem_append] at hfloats
    obtain ⟨f, rfl⟩ : ∃ f, fuel = f + 1 := ⟨fuel - 1, by omega⟩
    -- the filters are read two levels down, inside the object and the array
    have hnodes : ∀ n ∈ fs, ReadsAs nodeText (room - 1 - 1) (Node.toDoc n) n.dropNullBounds := by
      intro n hn
      have hmem : Node.toDoc n ∈ fs.map Node.toDoc := List.mem_map_of_mem hn
      have := Doc.depth_le_depthItems hmem
      exact nodeText_readsAs (Node.wellFormed_of_mem hfs hn)
        (fun x hx => hfloats x (.inl (Doc.floats_subset_floatsItems hx hmem))) (by omega)
    -- and so are the associations, inside the object and the map
    have hsubs : ∀ e ∈ as, ∀ rest, EndsNumber rest →
        specText f (room - 1 - 1) ((toDoc e.2).render.toList ++ rest) = .ok (e.2.dropNullBounds, rest) := by
      intro e he r _
      have hmem : (e.1, toDoc e.2) ∈ as.map fun e => (e.1, toDoc e.2) := List.mem_map_of_mem he
      have := Doc.depth_le_depthMembers hmem
      exact specText_render_associations as has e he f (room - 1 - 1) r
        (fun x hx => hfloats x (.inr (.inl (Doc.floats_subset_floatsMembers hx hmem)))) (by omega)
        (by omega)
    have htext : (Doc.object [("filters", .array (fs.map Node.toDoc)),
        ("associations", .object (as.map fun e => (e.1, toDoc e.2))), ("fast_path", .bool b)]).render.toList ++
          rest = '\x7b' :: ((renderString "filters").toList ++ ':' ::
            ((Doc.array (fs.map Node.toDoc)).render.toList ++ ',' :: ((renderString "associations").toList ++
              ':' :: ((Doc.object (as.map fun e => (e.1, toDoc e.2))).render.toList ++ ',' ::
                ((renderString "fast_path").toList ++ ':' :: ((Doc.bool b).render.toList ++
                  '\x7d' :: rest)))))) := by
      rw [toList_render_object, toList_renderMembers_cons]
      simp [memberText]
    rw [htext]
    simp only [specText, skipBlank_cons _ (show isBlank '\x7b' = false by decide),
      show ('\x7b' == '[') = false by decide, show ('\x7b' == '\x7b') = true by decide, if_true,
      Bool.false_eq_true, if_false, enter_of_lt (show 1 < room by omega), bind, Except.bind]
    simp only [fuelFor, walkMembers, nextKey_first]
    simp [readColon_colon, nodesText,
      readSeq_render nodeText Node.toDoc Node.dropNullBounds (room - 1) "a sequence" (by omega) fs hnodes,
      readMap_render (fun room cs => specText f room cs) toDoc dropNullBounds "a map" (by omega) as hsubs,
      KeyMap.foldl_insert_map_of_sorted dropNullBounds hsorted, readBool_render, nextKey_comma, nextKey_close,
      closeObject_close, pure, Except.pure]
    simp [SpecFields.toSpec, dropNullBounds, Node.dropNullBoundsAll_eq_map,
      dropNullBoundsAssociations_eq_map]

theorem specText_render_associations : ∀ (as : List (String × Spec)), wellFormedAssociations as = true →
    ∀ e ∈ as, ∀ (fuel room : Nat) (rest : List Char), (∀ x ∈ (toDoc e.2).floats, Doc.ReadsBack x) →
      (toDoc e.2).depth < room → room ≤ 2 * fuel →
        specText fuel room ((toDoc e.2).render.toList ++ rest) = .ok (e.2.dropNullBounds, rest)
  | (k, s) :: as => by
    intro hwf e he
    simp only [wellFormedAssociations, Bool.and_eq_true] at hwf
    rcases List.mem_cons.1 he with rfl | he
    · exact fun fuel room rest => specText_render s fuel room rest hwf.1
    · exact specText_render_associations as hwf.2 e he
  | [] => by
    intro _ e he
    cases he
end

/-- The JSON text of a specification reads back as the specification with every range bound
that holds `null` left out, at every depth of groups and associations, for every predicate kind
and nested value: provided its values are as the program builds them, its doubles read back,
and its text nests less deep than the reader's limit. -/
theorem ofJson_render_toDoc {s : Spec} (hs : s.wellFormed = true)
    (hfloats : ∀ x ∈ s.toDoc.floats, Doc.ReadsBack x) (hdepth : s.toDoc.depth < depthLimit) :
    ofJson s.toDoc.render = .ok s.dropNullBounds := by
  have h := specText_render s (depthLimit + 1) depthLimit [] hs hfloats hdepth (by simp [depthLimit])
  rw [List.append_nil] at h
  simp [ofJson, readAll, h, expectEnd, skipBlank, bind, Except.bind, pure, Except.pure,
    Except.mapError]

/-- Groups two deep, each kind of condition, nested values with two doubles, and an
association. -/
def nestedSpec : Spec where
  filters := [.pred ⟨"price", .range (some (.int 3)) none (some (.float ⟨0x4004000000000000⟩)) none⟩,
    .group .notAnd [.pred ⟨"tags", .equalsAny [.string "a\"b", .list [.bool true, .null]]⟩,
      .group .or [.pred ⟨"name", .startsWith "x"⟩,
        .pred ⟨"meta", .equals (.map [("k", .int 0), ("w", .float ⟨0xC0FE240C9FBE76C9⟩)])⟩]]]
  associations := [("bar", { filters := [.pred ⟨"id", .notEquals .null⟩], fastPath := false })]

theorem ofJson_render_toDoc_nested :
    nestedSpec.wellFormed = true ∧ nestedSpec.toDoc.depth < depthLimit ∧
      ofJson nestedSpec.toDoc.render = .ok nestedSpec.dropNullBounds :=
  have hfloats : nestedSpec.toDoc.floats = [⟨0x4004000000000000⟩, ⟨0xC0FE240C9FBE76C9⟩] := rfl
  have hreads : Doc.ReadsBack ⟨0x4004000000000000⟩ ∧ Doc.ReadsBack ⟨0xC0FE240C9FBE76C9⟩ :=
    ⟨by decide +kernel, by decide +kernel⟩
  ⟨by decide, by decide, ofJson_render_toDoc (by decide) (by simpa [hfloats] using hreads) (by decide)⟩

/-- A range whose two bounds hold `null`, as `between` builds it from two null values. -/
def nullBoundSpec : Spec := { filters := [.pred (Predicate.between "a" .null .null)] }

/-- Its text writes both bounds as `null`, which reads back as no bound: the specification read
back differs from it. -/
theorem jsonRoundTrips_null_bounds :
    nullBoundSpec.wellFormed = true ∧ nullBoundSpec.toDoc.depth < depthLimit ∧
      jsonRoundTrips nullBoundSpec = .ok false := by
  refine ⟨by decide, by decide, ?_⟩
  have h : (jsonRoundTrips nullBoundSpec).toOption = some false := by decide +kernel
  generalize jsonRoundTrips nullBoundSpec = r at h
  cases r <;> simp_all [Except.toOption]

end Spec

end FilterResolution.Filter
