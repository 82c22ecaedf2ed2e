import FilterResolution.Proofs.JsonDocs
import FilterResolution.Json.Stream

/-! # Lists and maps read back element by element

The stream readers take an array or an object one element or member at a time, one level deeper
than where it starts. Given an element reader that takes back the text of each element, the
whole list comes back; the member walk of an object takes back any sequence of per-key steps.
-/

namespace FilterResolution.Json

open FilterResolution.Number

namespace Doc

theorem depth_le_depthItems {d : Doc} : ∀ {ds : List Doc}, d ∈ ds → d.depth ≤ depthItems ds
  | e :: ds, h => by
    rcases List.mem_cons.1 h with rfl | h
    · exact Nat.le_max_left _ _
    · have := depth_le_depthItems h
      simp only [depthItems]
      omega

theorem depth_le_depthMembers {k : String} {d : Doc} :
    ∀ {ms : List (String × Doc)}, (k, d) ∈ ms → d.depth ≤ depthMembers ms
  | (k', e) :: ms, h => by
    rcases List.mem_cons.1 h with h | h
    · obtain ⟨rfl, rfl⟩ := Prod.mk.inj h
      exact Nat.le_max_left _ _
    · have := depth_le_depthMembers h
      simp only [depthMembers]
      omega

theorem floats_subset_floatsItems {d : Doc} {x : Binary64} (hx : x ∈ d.floats) :
    ∀ {ds : List Doc}, d ∈ ds → x ∈ floatsItems ds
  | e :: ds, h => by
    rcases List.mem_cons.1 h with rfl | h
    · simp [floatsItems, hx]
    · simp [floatsItems, floats_subset_floatsItems hx h]

theorem floats_subset_floatsMembers {k : String} {d : Doc} {x : Binary64} (hx : x ∈ d.floats) :
    ∀ {ms : List (String × Doc)}, (k, d) ∈ ms → x ∈ floatsMembers ms
  | (k', e) :: ms, h => by
    rcases List.mem_cons.1 h with h | h
    · obtain ⟨rfl, rfl⟩ := Prod.mk.inj h
      simp [floatsMembers, hx]
    · simp [floatsMembers, floats_subset_floatsMembers hx h]

end Doc

section Stream

variable {α β σ : Type}

/-- What an element reader needs of one element's document: its doubles read back, and the
reader takes its text to `a` before anything that cannot continue a number. -/
def ReadsAs (elem : Nat → List Char → Step α) (room : Nat) (d : Doc) (a : α) : Prop :=
  (∀ x ∈ d.floats, Doc.ReadsBack x) ∧
    ∀ rest, EndsNumber rest → elem room (d.render.toList ++ rest) = .ok (a, rest)

variable (elem : Nat → List Char → Step α) (enc : β → Doc) (dec : β → α) (room : Nat)

theorem readElements_tail : ∀ (xs : List β) (fuel : Nat) (acc : List α) (rest : List Char),
    (∀ x ∈ xs, ReadsAs elem room (enc x) (dec x)) → xs.length + 1 ≤ fuel →
      readElements elem fuel room false acc ((xs.map enc).flatMap (',' :: ·.render.toList) ++ ']' :: rest) =
        .ok (acc.reverse ++ xs.map dec, ']' :: rest)
  | [], fuel, acc, rest, _, hfuel => by
    obtain ⟨f, rfl⟩ : ∃ f, fuel = f + 1 := ⟨fuel - 1, by omega⟩
    simp [readElements, nextElement_close]
  | x :: xs, fuel, acc, rest, hxs, hfuel => by
    obtain ⟨hfloats, hread⟩ := hxs x (by simp)
    obtain ⟨c, t, hct, hc, hb⟩ := render_head (enc x) hfloats
    obtain ⟨f, rfl⟩ : ∃ f, fuel = f + 1 := ⟨fuel - 1, by omega⟩
    have hx := hread _ (endsNumber_items (xs.map enc) rest)
    rw [hct, List.cons_append] at hx
    have htext : ((x :: xs).map enc).flatMap (',' :: ·.render.toList) ++ ']' :: rest =
        ',' :: c :: (t ++ ((xs.map enc).flatMap (',' :: ·.render.toList) ++ ']' :: rest)) := by
      simp [hct]
    rw [htext]
    simp only [readElements, nextElement_comma _ hc hb, hx]
    rw [readElements_tail xs f (dec x :: acc) rest (fun y hy => hxs y (List.mem_cons_of_mem x hy))
      (by simp at hfuel; omega)]
    simp

theorem readElements_render (xs : List β) (fuel : Nat) (rest : List Char)
    (hxs : ∀ x ∈ xs, ReadsAs elem room (enc x) (dec x)) (hfuel : xs.length + 1 ≤ fuel) :
    readElements elem fuel room true [] ((Doc.renderItems (xs.map enc)).toList ++ ']' :: rest) =
      .ok (xs.map dec, ']' :: rest) := by
  obtain ⟨f, rfl⟩ : ∃ f, fuel = f + 1 := ⟨fuel - 1, by omega⟩
  cases xs with
  | nil => simp [readElements, Doc.renderItems, nextElement_close]
  | cons x xs =>
    obtain ⟨hfloats, hread⟩ := hxs x (by simp)
    obtain ⟨c, t, hct, hc, hb⟩ := render_head (enc x) hfloats
    have hx := hread _ (endsNumber_items (xs.map enc) rest)
    rw [hct, List.cons_append] at hx
    have htext : (Doc.renderItems ((x :: xs).map enc)).toList ++ ']' :: rest =
        c :: (t ++ ((xs.map enc).flatMap (',' :: ·.render.toList) ++ ']' :: rest)) := by
      simp [toList_renderItems_cons, hct]
    rw [htext]
    simp only [readElements, nextElement_first _ hc hb, hx]
    rw [readElements_tail elem enc dec room xs f [dec x] rest
      (fun y hy => hxs y (List.mem_cons_of_mem x hy)) (by simp at hfuel; omega)]
    simp

/-- Each element after the first brings its comma. -/
theorem length_le_flatMap_comma {γ : Type} (f : γ → List Char) :
    ∀ l : List γ, l.length ≤ (l.flatMap (',' :: f ·)).length
  | [] => by simp
  | x :: l => by
    have := length_le_flatMap_comma f l
    simp only [List.flatMap_cons, List.length_cons, List.length_append]
    omega

theorem length_le_renderItems : ∀ ds : List Doc, ds.length ≤ (Doc.renderItems ds).length + 1 := by
  intro ds
  cases ds with
  | nil => simp
  | cons d ds =>
    have := length_le_flatMap_comma (·.render.toList) ds
    rw [← String.length_toList, toList_renderItems_cons]
    simp only [List.length_cons, List.length_append]
    omega

/-- A list is read back element by element, one level deeper. -/
theorem readSeq_render (expected : String) (hroom : 1 < room) (xs : List β)
    (hxs : ∀ x ∈ xs, ReadsAs elem (room - 1) (enc x) (dec x)) (rest : List Char) :
    readSeq expected elem room ((Doc.array (xs.map enc)).render.toList ++ rest) =
      .ok (xs.map dec, rest) := by
  have hlen := length_le_renderItems (xs.map enc)
  have hfuel : xs.length + 1 ≤ fuelFor ((Doc.renderItems (xs.map enc)).toList ++ ']' :: rest) := by
    simp only [fuelFor, List.length_append, List.length_cons, String.length_toList,
      List.length_map] at hlen ⊢
    omega
  rw [toList_render_array, List.cons_append, List.append_assoc, List.singleton_append]
  simp only [readSeq, skipBlank_cons _ (show isBlank '[' = false by decide)]
  simp [enter_of_lt hroom, bind, Except.bind, readElements_render elem enc dec (room - 1) xs _ rest hxs hfuel,
    closeList_close, pure, Except.pure]

section Members

variable (visit : σ → String → List Char → Step σ) (enc : β → Doc) (step : σ → String × β → σ)

/-- The members written after the first are walked one by one, each after its comma. -/
theorem walkMembers_tail : ∀ (es : List (String × β)) (fuel : Nat) (st : σ) (rest : List Char),
    (∀ e ∈ es, ∀ st rest, EndsNumber rest →
      visit st e.1 (':' :: ((enc e.2).render.toList ++ rest)) = .ok (step st e, rest)) →
    es.length + 1 ≤ fuel →
      walkMembers visit fuel st false
          ((es.map fun e => (e.1, enc e.2)).flatMap (',' :: memberText ·) ++ '\x7d' :: rest) =
        .ok (es.foldl step st, '\x7d' :: rest)
  | [], fuel, st, rest, _, hfuel => by
    obtain ⟨f, rfl⟩ : ∃ f, fuel = f + 1 := ⟨fuel - 1, by omega⟩
    simp [walkMembers, nextKey_close]
  | (k, x) :: es, fuel, st, rest, hes, hfuel => by
    obtain ⟨f, rfl⟩ : ∃ f, fuel = f + 1 := ⟨fuel - 1, by omega⟩
    have hx := hes (k, x) (by simp) st _
      (endsNumber_members (es.map fun e => (e.1, enc e.2)) rest)
    have htext : (((k, x) :: es).map fun e => (e.1, enc e.2)).flatMap (',' :: memberText ·) ++
        '\x7d' :: rest = ',' :: ((renderString k).toList ++ ':' :: ((enc x).render.toList ++
          ((es.map fun e => (e.1, enc e.2)).flatMap (',' :: memberText ·) ++ '\x7d' :: rest))) := by
      simp [memberText]
    rw [htext]
    simp only [walkMembers, nextKey_comma, hx]
    rw [walkMembers_tail es f _ rest (fun e he => hes e (List.mem_cons_of_mem _ he))
      (by simp at hfuel; omega)]
    simp

theorem walkMembers_render (es : List (String × β)) (fuel : Nat) (st : σ) (rest : List Char)
    (hes : ∀ e ∈ es, ∀ st rest, EndsNumber rest →
      visit st e.1 (':' :: ((enc e.2).render.toList ++ rest)) = .ok (step st e, rest))
    (hfuel : es.length + 1 ≤ fuel) :
    walkMembers visit fuel st true
        ((Doc.renderMembers (es.map fun e => (e.1, enc e.2))).toList ++ '\x7d' :: rest) =
      .ok (es.foldl step st, '\x7d' :: rest) := by
  obtain ⟨f, rfl⟩ : ∃ f, fuel = f + 1 := ⟨fuel - 1, by omega⟩
  cases es with
  | nil => simp [walkMembers, Doc.renderMembers, nextKey_close]
  | cons e es =>
    obtain ⟨k, x⟩ := e
    have hx := hes (k, x) (by simp) st _
      (endsNumber_members (es.map fun e => (e.1, enc e.2)) rest)
    have htext : (Doc.renderMembers (((k, x) :: es).map fun e => (e.1, enc e.2))).toList ++
        '\x7d' :: rest = (renderString k).toList ++ ':' :: ((enc x).render.toList ++
          ((es.map fun e => (e.1, enc e.2)).flatMap (',' :: memberText ·) ++ '\x7d' :: rest)) := by
      simp [toList_renderMembers_cons, memberText]
    rw [htext]
    simp only [walkMembers, nextKey_first, hx]
    rw [walkMembers_tail visit enc step es f _ rest
      (fun e he => hes e (List.mem_cons_of_mem _ he)) (by simp at hfuel; omega)]
    simp

end Members

theorem length_le_renderMembers :
    ∀ ms : List (String × Doc), ms.length ≤ (Doc.renderMembers ms).length + 1
  | [] => by simp
  | m :: ms => by
    have := length_le_flatMap_comma memberText ms
    rw [← String.length_toList, toList_renderMembers_cons]
    simp only [List.length_cons, List.length_append]
    omega

/-- A map is read back entry by entry, one level deeper; each key is inserted as it comes. -/
theorem readMap_render (elem : Nat → List Char → Step α) (enc : β → Doc) (dec : β → α) {room : Nat}
    (expected : String) (hroom : 1 < room) (es : List (String × β))
    (hes : ∀ e ∈ es, ∀ rest, EndsNumber rest →
      elem (room - 1) ((enc e.2).render.toList ++ rest) = .ok (dec e.2, rest))
    (rest : List Char) :
    readMap expected elem room ((Doc.object (es.map fun e => (e.1, enc e.2))).render.toList ++ rest) =
      .ok (es.foldl (fun m e => KeyMap.insert e.1 (dec e.2) m) [], rest) := by
  have hlen := length_le_renderMembers (es.map fun e => (e.1, enc e.2))
  have hfuel : es.length + 1 ≤
      fuelFor ((Doc.renderMembers (es.map fun e => (e.1, enc e.2))).toList ++ '\x7d' :: rest) := by
    simp only [fuelFor, List.length_append, List.length_cons, String.length_toList,
      List.length_map] at hlen ⊢
    omega
  rw [toList_render_object, List.cons_append, List.append_assoc, List.singleton_append]
  simp only [readMap, skipBlank_cons _ (show isBlank '\x7b' = false by decide)]
  simp only [show ('\x7b' == '\x7b') = true by decide, if_true, enter_of_lt hroom, bind,
    Except.bind]
  rw [walkMembers_render _ enc (fun m e => KeyMap.insert e.1 (dec e.2) m) es _ [] rest ?_ hfuel]
  · simp [closeObject_close, pure, Except.pure]
  · intro e he st r hr
    simp [readColon_colon, hes e he r hr, pure, Except.pure]

end Stream

theorem readBool_render (b : Bool) (rest : List Char) :
    readBool ((Doc.bool b).render.toList ++ rest) = .ok (b, rest) := by
  cases b
  · have htext : (Doc.bool false).render.toList = 'f' :: ['a', 'l', 's', 'e'] := by decide
    simp [htext, readBool, skipBlank, isBlank, Except.map]
  · have htext : (Doc.bool true).render.toList = 't' :: ['r', 'u', 'e'] := by decide
    simp [htext, readBool, skipBlank, isBlank, Except.map]

end FilterResolution.Json
