import FilterResolution.Proofs.RegistryBuild
import FilterResolution.Proofs.JsonStreams
import Mathlib.Data.String.Basic

/-! # Maps kept in key order

The program keeps its maps, the members of a document's objects, the associations of a
specification and the entries of a map value, in name order with one entry per name. As a list
of entries that is a list whose keys ascend strictly (`KeyMap.Sorted`). Inserting keeps a map
sorted, since the new key goes before the first larger one or replaces its equal, so a map built
by insertion is sorted whatever order its entries come in. The reader files every object it reads
that way, at every depth (`Doc.KeysAscend`), and so does the streamed reader of maps; a member
walk keeps whatever each of its steps keeps.
-/

namespace FilterResolution.KeyMap

/-- The keys of a map ascend strictly, as a name-ordered map keeps them. -/
def Sorted {α : Type} (m : List (String × α)) : Prop := (m.map (·.1)).Pairwise (· < ·)

theorem sorted_nil {α : Type} : Sorted ([] : List (String × α)) := List.Pairwise.nil

/-- An entry of a map after inserting is the one inserted or an entry from before. -/
theorem mem_insert {α : Type} {key : String} {v : α} {e : String × α} :
    ∀ {m : List (String × α)}, e ∈ insert key v m → e = (key, v) ∨ e ∈ m
  | [], h => .inl (List.mem_singleton.1 h)
  | (k, w) :: rest, h => by
    simp only [insert] at h
    split at h
    · rcases List.mem_cons.1 h with h | h
      · exact .inl h
      · exact .inr h
    · split at h
      · rcases List.mem_cons.1 h with h | h
        · exact .inl h
        · exact .inr (List.mem_cons_of_mem _ h)
      · rcases List.mem_cons.1 h with h | h
        · exact .inr (h ▸ List.mem_cons_self ..)
        · rcases mem_insert h with h | h
          · exact .inl h
          · exact .inr (List.mem_cons_of_mem _ h)

/-- What a lookup finds is an entry of the map. -/
theorem mem_of_get?_eq_some {α : Type} {k : String} {v : α} :
    ∀ {m : List (String × α)}, get? k m = some v → (k, v) ∈ m
  | [], h => by simp [get?] at h
  | (k', w) :: rest, h => by
    simp only [get?] at h
    split at h
    · rename_i hk
      subst hk
      cases h
      exact List.mem_cons_self ..
    · exact List.mem_cons_of_mem _ (mem_of_get?_eq_some h)

/-- Inserting keeps a map sorted. -/
theorem insert_sorted {α : Type} (key : String) (v : α) :
    ∀ {m : List (String × α)}, Sorted m → Sorted (insert key v m)
  | [], _ => List.pairwise_singleton _ _
  | (k, w) :: rest, h => by
    unfold Sorted at h ⊢
    rw [List.map_cons, List.pairwise_cons] at h
    simp only [insert]
    split
    · -- the new key goes first: below `k`, so below every key after it
      rename_i hlt
      simp only [List.map_cons, List.pairwise_cons, List.mem_cons]
      refine ⟨fun k' hk' => ?_, h⟩
      rcases hk' with rfl | hk'
      · exact hlt
      · exact String.lt_trans hlt (h.1 k' hk')
    · split
      · rename_i heq
        subst heq
        simp only [List.map_cons, List.pairwise_cons]
        exact h
      · rename_i hnlt hne
        have hgt : k < key := by
          rcases lt_trichotomy key k with hlt | heq | hgt
          · exact absurd hlt hnlt
          · exact absurd heq hne
          · exact hgt
        simp only [List.map_cons, List.pairwise_cons]
        refine ⟨fun k' hk' => ?_, insert_sorted key v h.2⟩
        rcases (Virtual.KeyMap.mem_keys_insert rest key k' v).1 hk' with rfl | hk'
        · exact hgt
        · exact h.1 k' hk'

/-- Inserting entries one by one into a sorted map keeps it sorted. -/
theorem foldl_insert_sorted {α : Type} :
    ∀ (es acc : List (String × α)), Sorted acc →
      Sorted (es.foldl (fun m (k, v) => insert k v m) acc)
  | [], _, h => h
  | (k, v) :: es, _, h => foldl_insert_sorted es _ (insert_sorted k v h)

/-- A map built from entries in any order is sorted. -/
theorem ofList_sorted {α : Type} (es : List (String × α)) : Sorted (ofList es) :=
  foldl_insert_sorted es [] sorted_nil

end FilterResolution.KeyMap

namespace FilterResolution.Json

/-- Every object of a document, at every depth, has its members in ascending key order. -/
inductive Doc.KeysAscend : Doc → Prop where
  | null : Doc.KeysAscend .null
  | bool (b : Bool) : Doc.KeysAscend (.bool b)
  | number (n : Number) : Doc.KeysAscend (.number n)
  | string (s : String) : Doc.KeysAscend (.string s)
  | array {items : List Doc} : (∀ d ∈ items, Doc.KeysAscend d) → Doc.KeysAscend (.array items)
  | object {members : List (String × Doc)} : KeyMap.Sorted members →
      (∀ m ∈ members, Doc.KeysAscend m.2) → Doc.KeysAscend (.object members)

/-- Members filed by insertion into a sorted map, each with its keys ascending. -/
structure SortedMembers {α : Type} (keeps : α → Prop) (m : List (String × α)) : Prop where
  sorted : KeyMap.Sorted m
  values : ∀ e ∈ m, keeps e.2

theorem sortedMembers_nil {α : Type} (keeps : α → Prop) : SortedMembers keeps ([] : List (String × α)) :=
  ⟨KeyMap.sorted_nil, by simp⟩

/-- Inserting a value that keeps the property into such members keeps them such. -/
theorem SortedMembers.insert {α : Type} {keeps : α → Prop} {m : List (String × α)}
    (hm : SortedMembers keeps m) (key : String) {v : α} (hv : keeps v) :
    SortedMembers keeps (KeyMap.insert key v m) := by
  refine ⟨KeyMap.insert_sorted key v hm.sorted, fun e he => ?_⟩
  rcases KeyMap.mem_insert he with rfl | he
  · exact hv
  · exact hm.values e he

/-- What reading with `fuel` keeps: a document read has its keys ascending; the rest of a list
adds only such documents to those read before; the rest of an object files only such documents,
by insertion, into the sorted members read before. -/
structure ReadsInOrder (fuel : Nat) : Prop where
  doc : ∀ room cs d r, readDoc fuel room cs = .ok (d, r) → d.KeysAscend
  items : ∀ room first acc cs items r, (∀ d ∈ acc, Doc.KeysAscend d) →
    readItems fuel room first acc cs = .ok (items, r) → ∀ d ∈ items, Doc.KeysAscend d
  members : ∀ room first acc cs members r, SortedMembers Doc.KeysAscend acc →
    readMembers fuel room first acc cs = .ok (members, r) → SortedMembers Doc.KeysAscend members

theorem readsInOrder_zero : ReadsInOrder 0 where
  doc _ _ _ _ h := by simp [readDoc, fail] at h
  items _ _ _ _ _ _ _ h := by simp [readItems, fail] at h
  members _ _ _ _ _ _ _ h := by simp [readMembers, fail] at h

/-- A scalar read through `Except.map` is a document without objects. -/
theorem keysAscend_of_map_ok {α : Type} {x : Except DecodeError α} {f : α → Doc × List Char}
    {d : Doc} {r : List Char} (hf : ∀ a, (f a).1.KeysAscend) (h : x.map f = .ok (d, r)) :
    d.KeysAscend := by
  obtain ⟨a, -, ha⟩ := map_eq_ok_iff.1 h
  have := hf a
  rwa [ha] at this

theorem readDoc_succ_keysAscend {fuel : Nat} (ih : ReadsInOrder fuel) {room : Nat}
    {cs : List Char} {d : Doc} {r : List Char} (h : readDoc (fuel + 1) room cs = .ok (d, r)) :
    d.KeysAscend := by
  simp only [readDoc] at h
  split at h
  · simp [fail] at h
  · split_ifs at h
    · exact keysAscend_of_map_ok (fun _ => .null) h
    · exact keysAscend_of_map_ok (fun _ => .bool _) h
    · exact keysAscend_of_map_ok (fun _ => .bool _) h
    · exact keysAscend_of_map_ok (fun _ => .number _) h
    · exact keysAscend_of_map_ok (fun _ => .number _) h
    · exact keysAscend_of_map_ok (fun _ => .string _) h
    · -- a list: its elements are read one level down
      split at h
      · cases h
      · split at h
        · cases h
        · rename_i items _ hitems
          exact keysAscend_of_map_ok (fun _ => .array (ih.items _ _ _ _ _ _ (by simp)
            hitems)) h
    · -- an object: its members are filed one level down
      split at h
      · cases h
      · split at h
        · cases h
        · rename_i members _ hmembers
          have hm := ih.members _ _ _ _ _ _ (sortedMembers_nil _) hmembers
          exact keysAscend_of_map_ok (fun _ => .object hm.sorted hm.values) h
    · simp [fail] at h

theorem readItems_succ_keysAscend {fuel : Nat} (ih : ReadsInOrder fuel) {room : Nat}
    {first : Bool} {acc : List Doc} {cs : List Char} {items : List Doc} {r : List Char}
    (hacc : ∀ d ∈ acc, Doc.KeysAscend d) (h : readItems (fuel + 1) room first acc cs = .ok (items, r)) :
    ∀ d ∈ items, Doc.KeysAscend d := by
  simp only [readItems] at h
  split at h
  · cases h
  · -- the list ends: what was read, in order
    simp only [Except.ok.injEq, Prod.mk.injEq] at h
    obtain ⟨rfl, -⟩ := h
    intro d hd
    exact hacc d (List.mem_reverse.1 hd)
  · split at h
    · cases h
    · rename_i d' _ hd'
      refine ih.items _ _ _ _ _ _ (fun d hd => ?_) h
      rcases List.mem_cons.1 hd with rfl | hd
      · exact ih.doc _ _ _ _ hd'
      · exact hacc d hd

theorem readMembers_succ_sorted {fuel : Nat} (ih : ReadsInOrder fuel) {room : Nat}
    {first : Bool} {acc : List (String × Doc)} {cs : List Char} {members : List (String × Doc)}
    {r : List Char} (hacc : SortedMembers Doc.KeysAscend acc)
    (h : readMembers (fuel + 1) room first acc cs = .ok (members, r)) :
    SortedMembers Doc.KeysAscend members := by
  simp only [readMembers] at h
  split at h
  · cases h
  · simp only [Except.ok.injEq, Prod.mk.injEq] at h
    obtain ⟨rfl, -⟩ := h
    exact hacc
  · next key _ _ =>
    split at h
    · cases h
    · split at h
      · cases h
      · next d _ hd =>
        exact ih.members _ _ _ _ _ _ (hacc.insert key (ih.doc _ _ _ _ hd)) h

theorem readsInOrder : ∀ fuel, ReadsInOrder fuel
  | 0 => readsInOrder_zero
  | fuel + 1 =>
    have ih := readsInOrder fuel
    { doc := fun _ _ _ _ h => readDoc_succ_keysAscend ih h
      items := fun _ _ _ _ _ _ hacc h => readItems_succ_keysAscend ih hacc h
      members := fun _ _ _ _ _ _ hacc h => readMembers_succ_sorted ih hacc h }

/-- Every document the reader returns files the members of each of its objects in ascending key
order, at every depth. -/
theorem readDoc_keysAscend {fuel room : Nat} {cs : List Char} {d : Doc} {r : List Char}
    (h : readDoc fuel room cs = .ok (d, r)) : d.KeysAscend :=
  (readsInOrder fuel).doc room cs d r h

/-! ## Streamed reading -/

section Stream

variable {α σ : Type}

/-- A member walk keeps whatever each of its steps keeps. -/
theorem walkMembers_keeps {visit : σ → String → List Char → Step σ} (keeps : σ → Prop)
    (hvisit : ∀ st key r st' r', keeps st → visit st key r = .ok (st', r') → keeps st') :
    ∀ (fuel : Nat) (st : σ) (first : Bool) (cs : List Char) (st' : σ) (r : List Char),
      keeps st → walkMembers visit fuel st first cs = .ok (st', r) → keeps st'
  | 0, _, _, _, _, _, _, h => by simp [walkMembers, fail] at h
  | fuel + 1, st, first, cs, st', r, hst, h => by
    simp only [walkMembers] at h
    split at h
    · cases h
    · simp only [Except.ok.injEq, Prod.mk.injEq] at h
      obtain ⟨rfl, -⟩ := h
      exact hst
    · split at h
      · cases h
      · rename_i key _ _ _ st'' _ hstep
        exact walkMembers_keeps keeps hvisit fuel st'' false _ st' r
          (hvisit st key _ st'' _ hst hstep) h

/-- The elements a list reader adds each keep what the element reader's results keep. -/
theorem readElements_keeps {elem : Nat → List Char → Step α} (keeps : α → Prop)
    (helem : ∀ room cs x r, elem room cs = .ok (x, r) → keeps x) :
    ∀ (fuel room : Nat) (first : Bool) (acc : List α) (cs : List Char) (xs : List α)
      (r : List Char), (∀ x ∈ acc, keeps x) →
      readElements elem fuel room first acc cs = .ok (xs, r) → ∀ x ∈ xs, keeps x
  | 0, _, _, _, _, _, _, _, h => by simp [readElements, fail] at h
  | fuel + 1, room, first, acc, cs, xs, r, hacc, h => by
    simp only [readElements] at h
    split at h
    · cases h
    · simp only [Except.ok.injEq, Prod.mk.injEq] at h
      obtain ⟨rfl, -⟩ := h
      intro x hx
      exact hacc x (List.mem_reverse.1 hx)
    · split at h
      · cases h
      · rename_i x' _ hx'
        refine readElements_keeps keeps helem fuel room false _ _ xs r (fun x hx => ?_) h
        rcases List.mem_cons.1 hx with rfl | hx
        · exact helem _ _ _ _ hx'
        · exact hacc x hx

/-- Every element of a list read by `readSeq` keeps what the element reader's results keep. -/
theorem readSeq_keeps {elem : Nat → List Char → Step α} (keeps : α → Prop)
    (helem : ∀ room cs x r, elem room cs = .ok (x, r) → keeps x) {expected : String} {room : Nat}
    {cs : List Char} {xs : List α} {r : List Char}
    (h : readSeq expected elem room cs = .ok (xs, r)) : ∀ x ∈ xs, keeps x := by
  simp only [readSeq] at h
  split at h
  · simp [fail] at h
  · split_ifs at h
    simp only [bind_eq_ok_iff, pure, Except.pure, Except.ok.injEq, Prod.mk.injEq] at h
    obtain ⟨inner, -, items, hitems, -, -, rfl, -⟩ := h
    exact readElements_keeps keeps helem _ _ _ _ _ _ _ (by simp) hitems

/-- A map read by `readMap` is sorted, each of its values keeping what the value reader's results
keep. -/
theorem readMap_sorted {elem : Nat → List Char → Step α} (keeps : α → Prop)
    (helem : ∀ room cs x r, elem room cs = .ok (x, r) → keeps x) {expected : String} {room : Nat}
    {cs : List Char} {m : List (String × α)} {r : List Char}
    (h : readMap expected elem room cs = .ok (m, r)) : SortedMembers keeps m := by
  simp only [readMap] at h
  split at h
  · simp [fail] at h
  · split_ifs at h
    simp only [bind_eq_ok_iff, pure, Except.pure, Except.ok.injEq, Prod.mk.injEq] at h
    obtain ⟨inner, -, walked, hwalk, -, -, rfl, -⟩ := h
    -- each member read is inserted into the map read so far
    refine walkMembers_keeps (SortedMembers keeps) ?_ _ [] true _ walked.1 walked.2
      (sortedMembers_nil keeps) hwalk
    intro st key r st' r' hst hv
    simp only [bind_eq_ok_iff, Except.ok.injEq] at hv
    obtain ⟨afterColon, -, ⟨v, rest⟩, hread, rfl, -⟩ := hv
    exact hst.insert key (helem _ _ _ _ hread)

/-- What a whole text reads as is what its reader read from the text, followed only by blanks. -/
theorem readAll_eq_ok {read : Nat → List Char → Step α} {text : String} {x : α}
    (h : readAll read text = .ok x) : ∃ r, read depthLimit text.toList = .ok (x, r) := by
  simp only [readAll, bind_eq_ok_iff, pure, Except.pure, Except.ok.injEq] at h
  obtain ⟨read, hread, -, -, rfl⟩ := h
  exact ⟨read.2, hread⟩

end Stream

end FilterResolution.Json
