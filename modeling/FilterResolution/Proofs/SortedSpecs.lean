import FilterResolution.Proofs.KeyOrder
import FilterResolution.Proofs.SpecJson
import FilterResolution.Proofs.Loading

/-! # Specifications read with their maps in key order

A specification keeps its associations, and a map value its entries, in name order. The types
hold them as lists, so the order is a property of the values the program builds:
`Value.KeysAscend` and `Spec.KeysAscend` say that every map at every depth has its keys ascending,
the associations of every sub-specification and the map values inside every predicate alike.
Reading a value turns each object of a document into a map with the same keys, and reading a
specification files its associations by insertion, so every specification read from text has its
maps in key order; so does one built by adding associations. In particular the names a load asks
for ascend for every specification read from text.
-/

namespace FilterResolution.Filter

open FilterResolution.Json FilterResolution.Number

/-! ## Values -/

/-- Every map of a value, at every depth, has its keys ascending. -/
inductive Value.KeysAscend : Value → Prop where
  | null : Value.KeysAscend .null
  | bool (b : Bool) : Value.KeysAscend (.bool b)
  | int (i : Int64) : Value.KeysAscend (.int i)
  | uint (u : UInt64) : Value.KeysAscend (.uint u)
  | float (x : Binary64) : Value.KeysAscend (.float x)
  | string (s : String) : Value.KeysAscend (.string s)
  | list {items : List Value} : (∀ v ∈ items, Value.KeysAscend v) → Value.KeysAscend (.list items)
  | map {entries : List (String × Value)} : KeyMap.Sorted entries →
      (∀ e ∈ entries, Value.KeysAscend e.2) → Value.KeysAscend (.map entries)

theorem Value.entriesOfDoc_eq_map (ms : List (String × Doc)) :
    entriesOfDoc ms = ms.map fun m => (m.1, ofDoc m.2) := by
  induction ms with
  | nil => rfl
  | cons m ms ih => simp [entriesOfDoc, ih]

theorem Value.keysAscend_ofUnsigned (u : UInt64) : (ofUnsigned u).KeysAscend := by
  unfold ofUnsigned
  split
  · exact .int _
  · exact .uint u

/-- Reading a document as a value keeps the keys of each object, so the maps of the value
ascend where the objects of the document do. -/
theorem Value.ofDoc_keysAscend {d : Doc} (hd : d.KeysAscend) : (ofDoc d).KeysAscend := by
  induction hd with
  | null => exact .null
  | bool b => exact .bool b
  | number n =>
    cases n with
    | unsigned u => exact keysAscend_ofUnsigned u
    | signed i => exact .int i
    | float x => exact .float x
  | string s => exact .string s
  | array _ ih =>
    rw [ofDoc, itemsOfDoc_eq_map]
    refine .list fun v hv => ?_
    obtain ⟨d, hd, rfl⟩ := List.mem_map.1 hv
    exact ih d hd
  | object hsorted _ ih =>
    rw [ofDoc, entriesOfDoc_eq_map]
    refine .map ?_ fun e he => ?_
    · simpa [KeyMap.Sorted, Function.comp_def] using hsorted
    · obtain ⟨m, hm, rfl⟩ := List.mem_map.1 he
      exact ih m hm

/-- Every value read from text has its maps in key order. -/
theorem Value.ofJson_keysAscend {text : String} {v : Value} (h : Value.ofJson text = .ok v) :
    v.KeysAscend := by
  obtain ⟨r, hread⟩ := readAll_eq_ok h
  simp only [valueText, bind_eq_ok_iff, pure, Except.pure, Except.ok.injEq, Prod.mk.injEq] at hread
  obtain ⟨⟨doc, rest⟩, hdoc, rfl, -⟩ := hread
  exact ofDoc_keysAscend (readDoc_keysAscend hdoc)

/-! ## Conditions, predicates and nodes -/

/-- Every value a condition holds has its maps in key order. -/
def Condition.KeysAscend : Condition → Prop
  | .equals v => v.KeysAscend
  | .equalsAny vs => ∀ v ∈ vs, v.KeysAscend
  | .notEquals v => v.KeysAscend
  | .range gt gte lt lte => ∀ b ∈ [gt, gte, lt, lte], ∀ v ∈ b, Value.KeysAscend v
  | _ => True

/-- Every predicate of a node, at every depth of groups, holds values with their maps in key
order. -/
inductive Node.KeysAscend : Node → Prop where
  | pred {p : Predicate} : p.condition.KeysAscend → Node.KeysAscend (.pred p)
  | group {op : Operator} {children : List Node} :
      (∀ n ∈ children, Node.KeysAscend n) → Node.KeysAscend (.group op children)

section Members

variable {members : List (String × Doc)}

/-- A member looked up among members whose documents have their keys ascending is read as a
value with its maps in key order. -/
theorem keysAscend_ofDoc_get? (hms : ∀ m ∈ members, m.2.KeysAscend) {k : String} {d : Doc}
    (h : KeyMap.get? k members = some d) : (Value.ofDoc d).KeysAscend :=
  Value.ofDoc_keysAscend (hms (k, d) (KeyMap.mem_of_get?_eq_some h))

/-- A condition read from such members holds values with their maps in key order. -/
theorem Condition.ofMembers_keysAscend (hms : ∀ m ∈ members, m.2.KeysAscend) {name : String}
    {c : Condition} (h : Condition.ofMembers name members = .ok c) : c.KeysAscend := by
  unfold Condition.ofMembers at h
  dsimp only at h
  split at h
  · -- `equals`
    cases hv : KeyMap.get? "value" members with
    | none => simp [hv] at h
    | some d =>
      simp only [hv, Option.elim, Except.ok.injEq] at h
      subst h
      exact keysAscend_ofDoc_get? hms hv
  · -- `not_equals`
    cases hv : KeyMap.get? "value" members with
    | none => simp [hv] at h
    | some d =>
      simp only [hv, Option.elim, Except.ok.injEq] at h
      subst h
      exact keysAscend_ofDoc_get? hms hv
  · -- `equals_any`: the values are the elements of an array member
    split at h
    · cases h
    · next items hitems =>
      simp only [Except.ok.injEq] at h
      subst h
      have harray := hms _ (KeyMap.mem_of_get?_eq_some hitems)
      cases harray with
      | array hitems' =>
        intro v hv
        obtain ⟨d, hd, rfl⟩ := List.mem_map.1 hv
        exact Value.ofDoc_keysAscend (hitems' d hd)
    · cases h
  · obtain ⟨s, -, rfl⟩ := map_eq_ok_iff.1 h
    trivial
  · obtain ⟨s, -, rfl⟩ := map_eq_ok_iff.1 h
    trivial
  · obtain ⟨s, -, rfl⟩ := map_eq_ok_iff.1 h
    trivial
  · -- a range: each bound present is read from its member
    simp only [Except.ok.injEq] at h
    subst h
    intro b hb v hv
    simp only [List.mem_cons, List.not_mem_nil, or_false] at hb
    rcases hb with rfl | rfl | rfl | rfl <;>
    · split at hv
      · cases hv
      · cases hv
      · next d _ hd =>
        cases hv
        exact keysAscend_ofDoc_get? hms hd

/-- A predicate read from such members holds values with their maps in key order. -/
theorem predicateOfMembers_keysAscend (hms : ∀ m ∈ members, m.2.KeysAscend) {p : Predicate}
    (h : predicateOfMembers members = .ok p) : p.condition.KeysAscend := by
  simp only [predicateOfMembers, bind, Except.bind] at h
  -- the field and the name of the condition are read first; then the condition
  split at h
  · cases h
  · split at h
    · cases h
    · split at h
      · cases h
      · split at h
        · cases h
        · split at h
          · cases h
          · next c hc =>
            cases h
            refine Condition.ofMembers_keysAscend (fun m hm => hms m ?_) hc
            exact (List.mem_filter.1 (List.mem_filter.1 hm).1).1

end Members

/-- Nodes read from documents whose keys ascend hold values with their maps in key order. -/
theorem nodesOfDocs_keysAscend {items : List Doc}
    (hitems : ∀ d ∈ items, ∀ n, nodeOfDoc d = .ok n → n.KeysAscend) :
    ∀ {ns : List Node}, nodesOfDocs items = .ok ns → ∀ n ∈ ns, n.KeysAscend := by
  induction items with
  | nil =>
    intro ns h
    simp only [nodesOfDocs, Except.ok.injEq] at h
    subst h
    intro n hn
    cases hn
  | cons d rest ih =>
    intro ns h
    simp only [nodesOfDocs] at h
    split at h
    · cases h
    · next n hn =>
      obtain ⟨ns', hns', rfl⟩ := map_eq_ok_iff.1 h
      intro m hm
      rcases List.mem_cons.1 hm with rfl | hm
      · exact hitems d (List.mem_cons_self ..) m hn
      · exact ih (fun d' hd' => hitems d' (List.mem_cons_of_mem _ hd')) hns' m hm

/-- A member of a group's object is its `operator`, read as one, or its `children`, an array
read as nodes; the members after it are read from there. -/
theorem groupOfMembers_cons_eq_ok {op : Option Operator} {children : Option (List Node)}
    {k : String} {d : Doc} {rest : List (String × Doc)} {n : Node}
    (h : groupOfMembers op children ((k, d) :: rest) = .ok n) :
    (∃ o, operatorOfDoc d = .ok o ∧ groupOfMembers (some o) children rest = .ok n) ∨
      ∃ items ns, d = .array items ∧ nodesOfDocs items = .ok ns ∧
        groupOfMembers op (some ns) rest = .ok n := by
  -- the equations split on whether the member holds an array
  by_cases harray : ∃ items, d = .array items
  · obtain ⟨items, rfl⟩ := harray
    rw [groupOfMembers.eq_3] at h
    split at h
    · split at h
      · cases h
      · next o ho => exact .inl ⟨o, ho, h⟩
    · split at h
      · split at h
        · cases h
        · next ns hns => exact .inr ⟨items, ns, rfl, hns, h⟩
      · cases h
  · rw [groupOfMembers.eq_4 _ _ _ _ _ fun items hd => harray ⟨items, hd⟩] at h
    split at h
    · split at h
      · cases h
      · next o ho => exact .inl ⟨o, ho, h⟩
    · split at h <;> cases h

/-- A group read member by member holds only nodes whose values have their maps in key order,
given that each `children` array among the members is read so. -/
theorem groupOfMembers_keysAscend {members : List (String × Doc)}
    (hms : ∀ m ∈ members, ∀ items, m.2 = .array items →
      ∀ ns, nodesOfDocs items = .ok ns → ∀ n ∈ ns, n.KeysAscend) :
    ∀ (op : Option Operator) (children : Option (List Node)) (n : Node),
      (∀ cs, children = some cs → ∀ c ∈ cs, c.KeysAscend) →
      groupOfMembers op children members = .ok n → n.KeysAscend := by
  induction members with
  | nil =>
    intro op children n hchildren h
    cases op with
    | none => cases h
    | some op =>
      cases h
      refine .group fun c hc => ?_
      cases hcs : children with
      | none => simp [hcs] at hc
      | some cs =>
        rw [hcs, Option.getD_some] at hc
        exact hchildren cs hcs c hc
  | cons m rest ih =>
    intro op children n hchildren h
    obtain ⟨k, d⟩ := m
    have hrest := ih fun m' hm' => hms m' (List.mem_cons_of_mem _ hm')
    rcases groupOfMembers_cons_eq_ok h with ⟨o, -, h⟩ | ⟨items, ns, rfl, hns, h⟩
    · exact hrest _ _ _ hchildren h
    · refine hrest _ _ _ (fun cs hcs => ?_) h
      cases hcs
      exact hms (k, .array items) (List.mem_cons_self ..) items rfl ns hns

/-- A node read from a document whose keys ascend holds values with their maps in key order;
so do the nodes read from the elements of an array whose keys ascend. -/
theorem nodeOfDoc_keysAscend {d : Doc} (hd : d.KeysAscend) :
    (∀ n, nodeOfDoc d = .ok n → n.KeysAscend) ∧
      ∀ items, d = .array items → ∀ ns, nodesOfDocs items = .ok ns → ∀ n ∈ ns, n.KeysAscend := by
  induction hd with
  | null => exact ⟨fun n h => by simp [nodeOfDoc] at h, fun _ h => by cases h⟩
  | bool b => exact ⟨fun n h => by simp [nodeOfDoc] at h, fun _ h => by cases h⟩
  | number x => exact ⟨fun n h => by simp [nodeOfDoc] at h, fun _ h => by cases h⟩
  | string s => exact ⟨fun n h => by simp [nodeOfDoc] at h, fun _ h => by cases h⟩
  | array _ ih =>
    refine ⟨fun n h => by simp [nodeOfDoc] at h, fun items' h ns hns => ?_⟩
    cases h
    exact nodesOfDocs_keysAscend (fun d hd => (ih d hd).1) hns
  | object _ hmembers ih =>
    refine ⟨fun n h => ?_, fun _ h => by cases h⟩
    simp only [nodeOfDoc] at h
    split_ifs at h
    · obtain ⟨p, hp, rfl⟩ := map_eq_ok_iff.1 h
      exact .pred (predicateOfMembers_keysAscend hmembers hp)
    · exact groupOfMembers_keysAscend (fun m hm => (ih m hm).2) _ _ _ (fun _ h => by cases h) h

/-- Every node read from text holds values with their maps in key order. -/
theorem nodeText_keysAscend {room : Nat} {cs : List Char} {n : Node} {r : List Char}
    (h : nodeText room cs = .ok (n, r)) : n.KeysAscend := by
  simp only [nodeText, bind_eq_ok_iff, pure, Except.pure, Except.ok.injEq, Prod.mk.injEq] at h
  obtain ⟨⟨doc, rest⟩, hread, node, hnode, rfl, -⟩ := h
  exact (nodeOfDoc_keysAscend (readDoc_keysAscend hread)).1 node hnode

/-- Every node of a list read from text holds values with their maps in key order. -/
theorem nodesText_keysAscend {room : Nat} {cs : List Char} {ns : List Node} {r : List Char}
    (h : nodesText room cs = .ok (ns, r)) : ∀ n ∈ ns, n.KeysAscend :=
  readSeq_keeps Node.KeysAscend (fun _ _ _ _ h => nodeText_keysAscend h) h

/-! ## Specifications -/

/-- Every map of a specification has its keys ascending: its associations, at every depth of
sub-specifications, and the map values of every predicate of its filters. -/
inductive Spec.KeysAscend : Spec → Prop where
  | mk {filters : List Node} {associations : List (String × Spec)} {fastPath : Bool} :
      (∀ n ∈ filters, n.KeysAscend) → KeyMap.Sorted associations →
      (∀ a ∈ associations, Spec.KeysAscend a.2) → Spec.KeysAscend ⟨filters, associations, fastPath⟩

/-- A slot of a specification's array form holds its default or what its reader read. -/
theorem readSlot_eq_ok {α : Type} {elem : List Char → Except DecodeError (α × List Char)}
    {default : α} {first : Bool} {cs : List Char} {x : α} {r : List Char}
    (h : readSlot elem default first cs = .ok (x, r)) :
    x = default ∨ ∃ cs', elem cs' = .ok (x, r) := by
  unfold readSlot at h
  split at h
  · cases h
  · cases h
    exact .inl rfl
  · exact .inr ⟨_, h⟩

/-- The members of a specification's object read so far keep their maps in key order. -/
structure SpecFields.KeysAscend (st : SpecFields) : Prop where
  filters : ∀ fs, st.filters = some fs → ∀ n ∈ fs, n.KeysAscend
  associations : ∀ as, st.associations = some as → SortedMembers Spec.KeysAscend as

theorem SpecFields.keysAscend_empty : SpecFields.KeysAscend {} where
  filters _ h := by cases h
  associations _ h := by cases h

/-- Absent members take their defaults, which have no maps out of order. -/
theorem SpecFields.KeysAscend.toSpec {st : SpecFields} (h : st.KeysAscend) :
    st.toSpec.KeysAscend := by
  have hassoc : SortedMembers Spec.KeysAscend (st.associations.getD []) := by
    cases ha : st.associations with
    | none => exact sortedMembers_nil _
    | some as => exact h.associations as ha
  refine .mk (fun n hn => ?_) hassoc.sorted hassoc.values
  cases hf : st.filters with
  | none => simp [hf] at hn
  | some fs =>
    simp only [hf, Option.getD_some] at hn
    exact h.filters fs hf n hn

/-- A specification read from either of its forms has its maps in key order; the
sub-specifications of its associations are read with one unit of fuel less. -/
theorem specText_keysAscend :
    ∀ (fuel room : Nat) (cs : List Char) (s : Spec) (r : List Char),
      specText fuel room cs = .ok (s, r) → s.KeysAscend
  | 0, _, _, _, _, h => by simp [specText, fail] at h
  | fuel + 1, room, cs, s, r, h => by
    have hsub : ∀ room cs m r,
        readMap "a map" (fun room cs => specText fuel room cs) room cs = .ok (m, r) →
          SortedMembers Spec.KeysAscend m := fun _ _ _ _ h =>
      readMap_sorted Spec.KeysAscend (fun _ _ _ _ h => specText_keysAscend fuel _ _ _ _ h) h
    simp only [specText] at h
    split at h
    · simp [fail] at h
    split_ifs at h
    · -- the array form: each slot holds its default or what its reader read
      simp only [bind_eq_ok_iff, pure, Except.pure, Except.ok.injEq, Prod.mk.injEq] at h
      obtain ⟨inner, -, fread, hfread, aread, haread, bread, -, closed, -, rfl, -⟩ := h
      have hfilters : ∀ n ∈ fread.1, n.KeysAscend := by
        rcases readSlot_eq_ok hfread with hd | ⟨cs', hread⟩
        · simp [hd]
        · exact nodesText_keysAscend hread
      have hassoc : SortedMembers Spec.KeysAscend aread.1 := by
        rcases readSlot_eq_ok haread with hd | ⟨cs', hread⟩
        · rw [hd]
          exact sortedMembers_nil _
        · exact hsub _ _ _ _ hread
      exact .mk hfilters hassoc.sorted hassoc.values
    · -- the object form: the members are walked from no field read
      simp only [bind_eq_ok_iff, pure, Except.pure, Except.ok.injEq, Prod.mk.injEq] at h
      obtain ⟨inner, -, walked, hwalk, closed, -, rfl, -⟩ := h
      refine (walkMembers_keeps SpecFields.KeysAscend ?_ _ {} true _ walked.1 walked.2
        SpecFields.keysAscend_empty hwalk).toSpec
      intro st key r st' r' hst hv
      -- a member already read is refused; the others read their value after the colon
      split_ifs at hv <;>
        simp only [bind_eq_ok_iff, Except.ok.injEq, Prod.mk.injEq] at hv
      · -- `filters`: the nodes read
        obtain ⟨afterColon, -, ⟨ns, rest⟩, hread, rfl, -⟩ := hv
        refine ⟨fun fs hfs => ?_, hst.associations⟩
        cases hfs
        exact nodesText_keysAscend hread
      · -- `associations`: a map of sub-specifications
        obtain ⟨afterColon, -, ⟨as, rest⟩, hread, rfl, -⟩ := hv
        refine ⟨hst.filters, fun as' has => ?_⟩
        cases has
        exact hsub _ _ _ _ hread
      · -- `fast_path`: no map
        obtain ⟨afterColon, -, ⟨b, rest⟩, -, rfl, -⟩ := hv
        exact ⟨hst.filters, hst.associations⟩
      · -- any other member is skipped
        obtain ⟨afterColon, -, rest, -, rfl, -⟩ := hv
        exact hst

/-- Every specification read from text has its maps in key order: its associations, at every
depth, and the map values of its predicates. -/
theorem Spec.ofJson_keysAscend {text : String} {s : Spec} (h : Spec.ofJson text = .ok s) :
    s.KeysAscend := by
  unfold Spec.ofJson at h
  cases hread : readAll (specText (depthLimit + 1)) text with
  | error e =>
    rw [hread] at h
    cases h
  | ok s' =>
    rw [hread] at h
    cases h
    obtain ⟨r, htext⟩ := readAll_eq_ok hread
    exact specText_keysAscend _ _ _ _ _ htext

/-- Adding an association, as the builder does, keeps a specification's maps in key order. -/
theorem Spec.withAssociation_keysAscend {s sub : Spec} (hs : s.KeysAscend) (hsub : sub.KeysAscend)
    (name : String) : (s.withAssociation name sub).KeysAscend := by
  cases hs with
  | mk hfilters hsorted hassoc =>
    have hm : SortedMembers Spec.KeysAscend
        (KeyMap.insert name sub _) := (SortedMembers.mk hsorted hassoc).insert name hsub
    exact .mk hfilters hm.sorted hm.values

end FilterResolution.Filter

namespace FilterResolution.Virtual

open FilterResolution.Filter

/-- For every specification read from text, the names a load asks for ascend. -/
theorem requested_sorted_of_ofJson (reg : Registry) {text : String} {spec : Spec}
    (h : Spec.ofJson text = .ok spec) : (requested reg spec).Pairwise (· < ·) := by
  cases Spec.ofJson_keysAscend h with
  | mk _ hsorted _ => exact hsorted.filter _

end FilterResolution.Virtual
