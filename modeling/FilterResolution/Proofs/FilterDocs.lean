import FilterResolution.Proofs.JsonDocs
import FilterResolution.Proofs.Registry
import FilterResolution.Filter.Decode

/-! # Filters read back from their documents

A reader files the members of an object by key, so a predicate's object is looked up in key
order: `field`, then `type`, then the members the condition names. Every value, condition and
node comes back from the document a reader finds in its text, except that a range bound holding
`null` is written `null` and read as no bound at all.
-/

namespace FilterResolution.KeyMap

theorem insert_of_lt {α : Type} {key : String} (v : α) :
    ∀ {m : List (String × α)}, (∀ k ∈ m.map (·.1), k < key) →
      KeyMap.insert key v m = m ++ [(key, v)]
  | [], _ => rfl
  | (k, w) :: rest, h => by
    have hk : k < key := h k (by simp)
    simp only [KeyMap.insert, String.lt_asymm hk, if_false, List.cons_append]
    rw [if_neg (fun he : key = k => String.lt_irrefl k (he ▸ hk)), KeyMap.insert_of_lt v fun k' hk' =>
      h k' (List.mem_cons_of_mem _ hk')]

/-- Inserting entries whose keys ascend strictly, after keys below them all, appends them. -/
theorem foldl_insert_of_sorted {α : Type} :
    ∀ (l acc : List (String × α)), (l.map (·.1)).Pairwise (· < ·) →
      (∀ k ∈ acc.map (·.1), ∀ k' ∈ l.map (·.1), k < k') →
      l.foldl (fun m (k, v) => KeyMap.insert k v m) acc = acc ++ l
  | [], acc, _, _ => by simp
  | (k, v) :: l, acc, hl, hacc => by
    simp only [List.map_cons, List.pairwise_cons] at hl
    simp only [List.foldl_cons]
    rw [KeyMap.insert_of_lt v fun k' hk' => hacc k' hk' k (by simp),
      KeyMap.foldl_insert_of_sorted l _ hl.2 ?_]
    · simp
    · intro k₁ hk₁ k₂ hk₂
      rw [List.map_append, List.mem_append] at hk₁
      rcases hk₁ with hk₁ | hk₁
      · exact hacc k₁ hk₁ k₂ (by simp [hk₂])
      · obtain rfl : k₁ = k := by simpa using hk₁
        exact hl.1 k₂ hk₂

theorem ofList_of_sorted {α : Type} {l : List (String × α)} (h : (l.map (·.1)).Pairwise (· < ·)) :
    KeyMap.ofList l = l := by
  unfold KeyMap.ofList
  exact (KeyMap.foldl_insert_of_sorted l [] h (by simp)).trans (List.nil_append l)

theorem get?_eq_none {α : Type} {k : String} :
    ∀ {l : List (String × α)}, k ∉ l.map (·.1) → KeyMap.get? k l = none
  | [], _ => rfl
  | (k', v) :: l, h => by
    simp only [List.map_cons, List.mem_cons, not_or] at h
    simp [KeyMap.get?, h.1, KeyMap.get?_eq_none h.2]

/-- Looking a key up after inserting entries with distinct keys finds the entry inserted for it,
or else what was there before. -/
theorem get?_foldl_insert {α : Type} (k : String) :
    ∀ (l acc : List (String × α)), (l.map (·.1)).Nodup →
      KeyMap.get? k (l.foldl (fun m (k, v) => KeyMap.insert k v m) acc) =
        (KeyMap.get? k l).or (KeyMap.get? k acc)
  | [], acc, _ => by simp [KeyMap.get?]
  | (k₁, v₁) :: l, acc, hl => by
    simp only [List.map_cons, List.nodup_cons] at hl
    simp only [List.foldl_cons]
    rw [KeyMap.get?_foldl_insert k l _ hl.2, Virtual.KeyMap.get?_insert]
    by_cases hk : k = k₁
    · subst hk
      simp [KeyMap.get?, KeyMap.get?_eq_none hl.1]
    · simp [KeyMap.get?, hk]

theorem get?_ofList {α : Type} (k : String) {l : List (String × α)} (h : (l.map (·.1)).Nodup) :
    KeyMap.get? k (KeyMap.ofList l) = KeyMap.get? k l := by
  unfold KeyMap.ofList
  rw [KeyMap.get?_foldl_insert k l [] h]
  cases KeyMap.get? k l <;> rfl

theorem get?_filter {α : Type} (k j : String) :
    ∀ (l : List (String × α)),
      KeyMap.get? k (l.filter (·.1 != j)) = if k = j then none else KeyMap.get? k l
  | [] => by simp [KeyMap.get?]
  | (k', v) :: l => by
    rw [List.filter_cons]
    by_cases hj : k' = j
    · subst hj
      simp only [bne_self_eq_false, Bool.false_eq_true, if_false, KeyMap.get?_filter k k' l]
      by_cases hk : k = k' <;> simp [KeyMap.get?, hk]
    · simp only [bne_iff_ne, ne_eq, hj, not_false_eq_true, if_true, KeyMap.get?,
        KeyMap.get?_filter k j l]
      by_cases hk : k = j
      · simp [hk, Ne.symm hj]
      · simp [hk]

theorem get?_append {α : Type} (k : String) :
    ∀ (l l' : List (String × α)), KeyMap.get? k (l ++ l') = (KeyMap.get? k l).or (KeyMap.get? k l')
  | [], _ => by simp [KeyMap.get?]
  | (k', v) :: l, l' => by
    by_cases hk : k = k' <;> simp [KeyMap.get?, hk, KeyMap.get?_append k l l']

theorem get?_toList_map {α β : Type} (k k' : String) (f : β → α) (o : Option β) :
    KeyMap.get? k (o.map fun v => (k', f v)).toList = if k = k' then o.map f else none := by
  cases o <;> by_cases hk : k = k' <;> simp [KeyMap.get?, hk]

/-- Inserting entries whose keys ascend strictly into an empty map keeps them as they are. -/
theorem foldl_insert_map_of_sorted {β γ : Type} (g : β → γ) {es : List (String × β)}
    (h : (es.map (·.1)).Pairwise (· < ·)) :
    es.foldl (fun m e => KeyMap.insert e.1 (g e.2) m) [] = es.map fun e => (e.1, g e.2) := by
  have hsorted : ((es.map fun e => (e.1, g e.2)).map (·.1)).Pairwise (· < ·) := by
    simpa [Function.comp_def] using h
  have := KeyMap.foldl_insert_of_sorted (es.map fun e => (e.1, g e.2)) [] hsorted (by simp)
  simpa [List.foldl_map] using this

end FilterResolution.KeyMap

namespace FilterResolution.Json.Doc

theorem keys_readBackMembers :
    ∀ ms : List (String × Doc), (Doc.readBackMembers ms).map (·.1) = ms.map (·.1) := by
  intro ms
  induction ms with
  | nil => rfl
  | cons m ms ih =>
    obtain ⟨k, d⟩ := m
    simp [Doc.readBackMembers, ih]

theorem get?_readBackMembers (k : String) :
    ∀ ms : List (String × Doc), KeyMap.get? k (Doc.readBackMembers ms) = (KeyMap.get? k ms).map Doc.readBack := by
  intro ms
  induction ms with
  | nil => rfl
  | cons m ms ih =>
    obtain ⟨k', d⟩ := m
    by_cases hk : k = k' <;> simp [Doc.readBackMembers, KeyMap.get?, hk, ih]

/-- The members of an object as a reader files them, looked up by key. -/
theorem get?_ofList_readBackMembers (k : String) {ms : List (String × Doc)}
    (h : (ms.map (·.1)).Nodup) :
    KeyMap.get? k (KeyMap.ofList (Doc.readBackMembers ms)) = (KeyMap.get? k ms).map Doc.readBack := by
  rw [KeyMap.get?_ofList k (by rw [Doc.keys_readBackMembers]; exact h), Doc.get?_readBackMembers]

end FilterResolution.Json.Doc

namespace FilterResolution.Filter

open FilterResolution.Json FilterResolution.Number

/-! ## Values -/

namespace Value

mutual
/-- A value as the program holds one: its doubles are finite, `uint` holds only numbers above
the signed range, and the keys of a map ascend strictly. -/
def wellFormed : Value → Bool
  | .float x => x.isFinite
  | .uint u => decide (maxSigned < u.toNat)
  | .list items => wellFormedItems items
  | .map entries => decide ((entries.map (·.1)).Pairwise (· < ·)) && wellFormedEntries entries
  | _ => true

def wellFormedItems : List Value → Bool
  | [] => true
  | v :: vs => wellFormed v && wellFormedItems vs

def wellFormedEntries : List (String × Value) → Bool
  | [] => true
  | (_, v) :: es => wellFormed v && wellFormedEntries es
end

theorem itemsToDoc_eq_map : ∀ vs : List Value, itemsToDoc vs = vs.map toDoc
  | [] => rfl
  | v :: vs => by simp [itemsToDoc, itemsToDoc_eq_map vs]

theorem itemsOfDoc_eq_map : ∀ ds : List Doc, itemsOfDoc ds = ds.map ofDoc := by
  intro ds
  induction ds with
  | nil => rfl
  | cons d ds ih => simp [itemsOfDoc, ih]

theorem keys_readBackMembers_entriesToDoc :
    ∀ es : List (String × Value), (Doc.readBackMembers (entriesToDoc es)).map (·.1) = es.map (·.1)
  | [] => rfl
  | (k, v) :: es => by
    simp [entriesToDoc, Doc.readBackMembers, keys_readBackMembers_entriesToDoc es]

/-- A non-negative `int` is read back unsigned, and a reader files it as an `int` again. -/
theorem ofUnsigned_readBack_int {i : Int64} (hi : 0 ≤ i.toInt) :
    ofUnsigned (UInt64.ofNat i.toInt.toNat) = .int i := by
  have hlt := Int64.toInt_lt i
  have hsize : i.toInt.toNat < 2 ^ 64 := by omega
  have hnat : (UInt64.ofNat i.toInt.toNat).toNat = i.toInt.toNat := UInt64.toNat_ofNat_of_lt' hsize
  have hfits : i.toInt.toNat ≤ maxSigned := by
    simp only [maxSigned, Nat.pow_eq]
    omega
  have hint : Int64.ofNat i.toInt.toNat = i := by
    apply Int64.toInt_inj.1
    rw [Int64.toInt_ofNat_of_lt (by omega)]
    omega
  simp only [ofUnsigned, hnat, hfits, if_true, hint]

mutual
/-- A well-formed value comes back from the text of its document. -/
theorem ofDoc_readBack_toDoc : ∀ v : Value, v.wellFormed = true → ofDoc (toDoc v).readBack = v
  | .null => fun _ => rfl
  | .bool _ => fun _ => rfl
  | .int i => fun _ => by
    by_cases hi : 0 ≤ i.toInt
    · simp only [toDoc, Doc.readBack, hi, if_true, ofDoc]
      exact ofUnsigned_readBack_int hi
    · simp [toDoc, Doc.readBack, hi, ofDoc]
  | .uint u => fun h => by
    simp only [wellFormed, decide_eq_true_eq] at h
    simp [toDoc, Doc.readBack, ofDoc, ofUnsigned, Nat.not_le.2 h]
  | .float _ => fun _ => rfl
  | .string _ => fun _ => rfl
  | .list items => fun h => by
    simp only [toDoc, Doc.readBack, ofDoc]
    rw [itemsOfDoc_readBack items h]
  | .map entries => fun h => by
    simp only [wellFormed, Bool.and_eq_true, decide_eq_true_eq] at h
    have hsorted : ((Doc.readBackMembers (entriesToDoc entries)).map (·.1)).Pairwise (· < ·) := by
      rw [keys_readBackMembers_entriesToDoc]
      exact h.1
    simp only [toDoc, Doc.readBack, ofDoc, KeyMap.ofList_of_sorted hsorted]
    rw [entriesOfDoc_readBack entries h.2]

theorem itemsOfDoc_readBack : ∀ vs : List Value, wellFormedItems vs = true →
    itemsOfDoc (Doc.readBackItems (itemsToDoc vs)) = vs
  | [] => fun _ => rfl
  | v :: vs => fun h => by
    simp only [wellFormedItems, Bool.and_eq_true] at h
    simp only [itemsToDoc, Doc.readBackItems, itemsOfDoc]
    rw [ofDoc_readBack_toDoc v h.1, itemsOfDoc_readBack vs h.2]

theorem entriesOfDoc_readBack : ∀ es : List (String × Value), wellFormedEntries es = true →
    entriesOfDoc (Doc.readBackMembers (entriesToDoc es)) = es
  | [] => fun _ => rfl
  | (k, v) :: es => fun h => by
    simp only [wellFormedEntries, Bool.and_eq_true] at h
    simp only [entriesToDoc, Doc.readBackMembers, entriesOfDoc]
    rw [ofDoc_readBack_toDoc v h.1, entriesOfDoc_readBack es h.2]
end

theorem toDoc_readBack_eq_null {v : Value} : (toDoc v).readBack = .null ↔ v = .null := by
  cases v with
  | null => simp [toDoc, Doc.readBack]
  | int i => by_cases hi : 0 ≤ i.toInt <;> simp [toDoc, Doc.readBack, hi]
  | _ => simp [toDoc, Doc.readBack]

end Value

/-! ## Conditions and nodes -/

/-- A range bound as a reader finds it: a bound holding `null` is written `null`, which reads
as no bound. -/
def dropNull : Option Value → Option Value
  | some .null => none
  | b => b

namespace Condition

/-- The condition with every range bound that holds `null` left out. -/
def dropNullBounds : Condition → Condition
  | .range gt gte lt lte => .range (dropNull gt) (dropNull gte) (dropNull lt) (dropNull lte)
  | c => c

/-- Whether every value of the condition is well formed. -/
def wellFormed : Condition → Bool
  | .equals v => v.wellFormed
  | .equalsAny vs => Value.wellFormedItems vs
  | .notEquals v => v.wellFormed
  | .range gt gte lt lte => [gt, gte, lt, lte].all (·.all Value.wellFormed)
  | _ => true

theorem name_mem_names (c : Condition) : c.name ∈ names := by
  cases c <;> simp [name, names]

end Condition

namespace Predicate

theorem conditionMembers_range (gt gte lt lte : Option Value) :
    conditionMembers (.range gt gte lt lte) =
      (gt.map fun v => ("gt", v.toDoc)).toList ++ (gte.map fun v => ("gte", v.toDoc)).toList ++
        (lt.map fun v => ("lt", v.toDoc)).toList ++ (lte.map fun v => ("lte", v.toDoc)).toList := by
  cases gt <;> cases gte <;> cases lt <;> cases lte <;> rfl

/-- The keys of a condition's members, in the order they are written. -/
theorem keys_conditionMembers (c : Condition) :
    List.Sublist ((conditionMembers c).map (·.1)) ["value", "values", "gt", "gte", "lt", "lte"] := by
  cases c with
  | range gt gte lt lte =>
    -- each bound is written under its own key or not at all
    have hbound : ∀ (k : String) (b : Option Value),
        List.Sublist (((b.map fun v => (k, v.toDoc)).toList).map (·.1)) [k] := by
      intro k b
      cases b <;> simp
    rw [conditionMembers_range]
    simp only [List.map_append]
    exact ((((hbound "gt" gt).append (hbound "gte" gte)).append (hbound "lt" lt)).append
      (hbound "lte" lte)).cons _ |>.cons _
  | _ => simp [conditionMembers]

end Predicate

namespace Condition

theorem dropNull_of_ne {v : Value} (h : v ≠ .null) : dropNull (some v) = some v := by
  cases v <;> simp_all [dropNull]

/-- An absent bound is read back absent. -/
theorem dropNull_of_map_eq_none {b : Option Value}
    (h : b.map (Doc.readBack ∘ Value.toDoc) = none) : none = dropNull b := by
  rw [Option.map_eq_none_iff] at h
  subst h
  rfl

/-- A bound whose document reads back as `null` holds `null`, and is dropped. -/
theorem dropNull_of_map_eq_null {b : Option Value}
    (h : b.map (Doc.readBack ∘ Value.toDoc) = some .null) : none = dropNull b := by
  obtain ⟨v, rfl, hv⟩ := Option.map_eq_some_iff.1 h
  rw [Function.comp_apply, Value.toDoc_readBack_eq_null] at hv
  subst hv
  rfl

/-- Any other well-formed bound is read back as itself. -/
theorem dropNull_of_map_eq_some {b : Option Value} {d : Doc} (hb : b.all Value.wellFormed = true)
    (h : b.map (Doc.readBack ∘ Value.toDoc) = some d) (hd : d ≠ .null) :
    some (Value.ofDoc d) = dropNull b := by
  obtain ⟨v, rfl, rfl⟩ := Option.map_eq_some_iff.1 h
  have hv : v ≠ .null := fun hv => hd (Value.toDoc_readBack_eq_null.2 hv)
  rw [dropNull_of_ne hv, Function.comp_apply, Value.ofDoc_readBack_toDoc v (by simpa using hb)]

/-- A condition is read back from members that agree with its own, read back, on every key
but `field` and `type`. A range bound holding `null` is read as no bound. -/
theorem ofMembers_readBack (c : Condition) (hc : c.wellFormed = true) {N : List (String × Doc)}
    (hN : ∀ k, k ≠ "field" → k ≠ "type" →
      KeyMap.get? k N = (KeyMap.get? k (Predicate.conditionMembers c)).map Doc.readBack) :
    ofMembers c.name N = .ok c.dropNullBounds := by
  cases c with
  | equals v | notEquals v =>
    simp [name, ofMembers, hN "value" (by decide) (by decide), Predicate.conditionMembers,
      KeyMap.get?, Value.ofDoc_readBack_toDoc v hc, dropNullBounds]
  | equalsAny vs =>
    have hitems := Value.itemsOfDoc_readBack vs hc
    rw [Value.itemsToDoc_eq_map] at hitems
    simp [name, ofMembers, hN "values" (by decide) (by decide), Predicate.conditionMembers,
      KeyMap.get?, Doc.readBack, dropNullBounds, ← Value.itemsOfDoc_eq_map, hitems]
  | contains t | startsWith t | endsWith t =>
    simp [name, ofMembers, hN "value" (by decide) (by decide), Predicate.conditionMembers,
      KeyMap.get?, Doc.readBack, stringOfDoc, dropNullBounds, Except.map]
  | range gt gte lt lte =>
    simp only [wellFormed, List.all_cons, List.all_nil, Bool.and_true, Bool.and_eq_true] at hc
    simp only [name, ofMembers, hN "gt" (by decide) (by decide), hN "gte" (by decide) (by decide),
      hN "lt" (by decide) (by decide), hN "lte" (by decide) (by decide),
      Predicate.conditionMembers_range, KeyMap.get?_append, KeyMap.get?_toList_map]
    simp
    simp only [dropNullBounds]
    obtain ⟨hgt, hgte, hlt, hlte⟩ := hc
    -- a bound is read as its value, or as no bound where its value is written `null`
    refine congr (congr (congr (congrArg range ?_) ?_) ?_) ?_
    all_goals
      split
      · exact dropNull_of_map_eq_none ‹_›
      · exact dropNull_of_map_eq_null ‹_›
      · exact dropNull_of_map_eq_some (by assumption) ‹_› ‹_›

end Condition

namespace Node

mutual
/-- The node with every range bound that holds `null` left out. -/
def dropNullBounds : Node → Node
  | .pred p => .pred ⟨p.field, p.condition.dropNullBounds⟩
  | .group op children => .group op (dropNullBoundsAll children)

def dropNullBoundsAll : List Node → List Node
  | [] => []
  | n :: ns => dropNullBounds n :: dropNullBoundsAll ns
end

mutual
/-- Whether every value of the node's predicates is well formed. -/
def wellFormed : Node → Bool
  | .pred p => p.condition.wellFormed
  | .group _ children => wellFormedAll children

def wellFormedAll : List Node → Bool
  | [] => true
  | n :: ns => wellFormed n && wellFormedAll ns
end

end Node

/-- A predicate is read from any members that hold its field and the name of its condition as
strings, and agree with the condition's own members, read back, on every other key. -/
theorem predicateOfMembers_of_get? (field : String) (c : Condition) (hc : c.wellFormed = true)
    {M : List (String × Doc)} (hfield : KeyMap.get? "field" M = some (.string field))
    (htype : KeyMap.get? "type" M = some (.string c.name))
    (hrest : ∀ k, k ≠ "field" → k ≠ "type" →
      KeyMap.get? k M = (KeyMap.get? k (Predicate.conditionMembers c)).map Doc.readBack) :
    predicateOfMembers M = .ok ⟨field, c.dropNullBounds⟩ := by
  -- the condition reads what is left once `field` and `type` are taken out
  have hN : ∀ k, k ≠ "field" → k ≠ "type" →
      KeyMap.get? k ((M.filter (·.1 != "field")).filter (·.1 != "type")) =
        (KeyMap.get? k (Predicate.conditionMembers c)).map Doc.readBack := by
    intro k hf ht
    rw [KeyMap.get?_filter, KeyMap.get?_filter, if_neg ht, if_neg hf]
    exact hrest k hf ht
  simp only [predicateOfMembers, hfield, KeyMap.get?_filter, htype]
  simp [stringOfDoc, Condition.nameOfDoc, Condition.name_mem_names, bind, Except.bind,
    Condition.ofMembers_readBack c hc hN, -List.filter_filter, pure, Except.pure]

/-- A predicate's document is read back as the predicate, its null range bounds left out: the
object holds `field`, `type` and the condition's own members, and neither group key. -/
theorem nodeOfDoc_readBack_pred (p : Predicate) (hp : p.condition.wellFormed = true) :
    nodeOfDoc (Node.toDoc (.pred p)).readBack = .ok (.pred ⟨p.field, p.condition.dropNullBounds⟩) := by
  have hkeys : List.Sublist ((("field", Doc.string p.field) :: ("type", Doc.string p.condition.name) ::
      Predicate.conditionMembers p.condition).map (·.1))
      ["field", "type", "value", "values", "gt", "gte", "lt", "lte"] :=
    ((Predicate.keys_conditionMembers p.condition).cons_cons _).cons_cons _
  have hget := fun k => Doc.get?_ofList_readBackMembers k (hkeys.nodup (by decide))
  have hmissing : ∀ k, k ∉ ["field", "type", "value", "values", "gt", "gte", "lt", "lte"] →
      KeyMap.get? k (("field", Doc.string p.field) :: ("type", Doc.string p.condition.name) ::
        Predicate.conditionMembers p.condition) = none :=
    fun k hk => KeyMap.get?_eq_none fun h => hk (hkeys.subset h)
  have hpred := predicateOfMembers_of_get? p.field p.condition hp
    (by rw [hget]; simp [KeyMap.get?, Doc.readBack]) (by rw [hget]; simp [KeyMap.get?, Doc.readBack])
    (fun k hf ht => by rw [hget]; simp [KeyMap.get?, hf, ht])
  simp only [Node.toDoc, Predicate.toDoc, Doc.readBack, nodeOfDoc, KeyMap.contains, hget,
    hmissing "operator" (by decide), hmissing "children" (by decide), hpred]
  simp [KeyMap.get?, Except.map]

theorem Operator.ofName?_name (op : Operator) : Operator.ofName? op.name = some op := by
  cases op <;> rfl

/-- A group's document has its keys filed as `children` before `operator`. -/
theorem ofList_group_members (op : Doc) (children : Doc) :
    KeyMap.ofList [("operator", op), ("children", children)] = [("children", children), ("operator", op)] := by
  have hlt : "children" < "operator" := by decide
  simp [KeyMap.ofList, KeyMap.insert, hlt]

mutual
/-- A node's document is read back as the node, its null range bounds left out, at every depth
of groups. -/
theorem nodeOfDoc_readBack_toDoc : ∀ n : Node, n.wellFormed = true →
    nodeOfDoc (Node.toDoc n).readBack = .ok n.dropNullBounds
  | .pred p => fun h => nodeOfDoc_readBack_pred p h
  | .group op children => fun h => by
    simp only [Node.wellFormed] at h
    simp only [Node.toDoc, Doc.readBack, Doc.readBackMembers, ofList_group_members, nodeOfDoc]
    simp [KeyMap.contains, KeyMap.get?, groupOfMembers, nodesOfDocs_readBack_toDocAll children h,
      operatorOfDoc, Operator.ofName?_name, Node.dropNullBounds]

theorem nodesOfDocs_readBack_toDocAll : ∀ ns : List Node, Node.wellFormedAll ns = true →
    nodesOfDocs (Doc.readBackItems (Node.toDocAll ns)) = .ok (Node.dropNullBoundsAll ns)
  | [] => fun _ => rfl
  | n :: ns => fun h => by
    simp only [Node.wellFormedAll, Bool.and_eq_true] at h
    simp [Node.toDocAll, Doc.readBackItems, nodesOfDocs, nodeOfDoc_readBack_toDoc n h.1,
      nodesOfDocs_readBack_toDocAll ns h.2, Node.dropNullBoundsAll, Except.map]
end

end FilterResolution.Filter
