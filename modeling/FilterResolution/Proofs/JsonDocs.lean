import FilterResolution.Proofs.JsonScalars

/-! # Reading back the text of a document

Reading the compact text of a document gives the document back up to two things the reader
normalises: a non-negative signed number comes back unsigned, and the members of an object come
back in key order with the last one written for each key. `Doc.readBack` is that normal form.
The text must nest no deeper than the reader allows, and every double in it must read back as
itself: the reader takes a double's text by the stepwise rule, which for a long significand can
land on a neighbouring double.
-/

namespace FilterResolution.Json

open FilterResolution.Number

namespace Doc

mutual
/-- The document that a reader finds in the text of `d`. -/
def readBack : Doc → Doc
  | .number (.signed i) =>
    if 0 ≤ i.toInt then .number (.unsigned (UInt64.ofNat i.toInt.toNat)) else .number (.signed i)
  | .array items => .array (readBackItems items)
  | .object members => .object (KeyMap.ofList (readBackMembers members))
  | d => d

def readBackItems : List Doc → List Doc
  | [] => []
  | d :: ds => readBack d :: readBackItems ds

def readBackMembers : List (String × Doc) → List (String × Doc)
  | [] => []
  | (k, d) :: ms => (k, readBack d) :: readBackMembers ms
end

mutual
/-- How deep arrays and objects nest in a document. -/
def depth : Doc → Nat
  | .array items => depthItems items + 1
  | .object members => depthMembers members + 1
  | _ => 0

def depthItems : List Doc → Nat
  | [] => 0
  | d :: ds => max (depth d) (depthItems ds)

def depthMembers : List (String × Doc) → Nat
  | [] => 0
  | (_, d) :: ms => max (depth d) (depthMembers ms)
end

mutual
/-- The doubles of a document, in text order. -/
def floats : Doc → List Binary64
  | .number (.float x) => [x]
  | .array items => floatsItems items
  | .object members => floatsMembers members
  | _ => []

def floatsItems : List Doc → List Binary64
  | [] => []
  | d :: ds => floats d ++ floatsItems ds

def floatsMembers : List (String × Doc) → List Binary64
  | [] => []
  | (_, d) :: ms => floats d ++ floatsMembers ms
end

/-- A double whose text a reader takes back to the same double. -/
def ReadsBack (x : Binary64) : Prop :=
  Doc.ofText (Doc.number (.float x)).render = .ok (.number (.float x))

/-- Reads the text of a double and compares what comes back. -/
def readsBackCheck (x : Binary64) : Bool :=
  match Doc.ofText (Doc.number (.float x)).render with
  | .ok (.number (.float y)) => y == x
  | _ => false

theorem readsBack_iff_check (x : Binary64) : ReadsBack x ↔ readsBackCheck x = true := by
  unfold ReadsBack readsBackCheck
  constructor
  · intro h
    rw [h]
    simp
  · intro h
    split at h
    · rename_i y hy
      rw [hy, beq_iff_eq.1 h]
    · cases h

instance : DecidablePred ReadsBack := fun x => decidable_of_iff _ (readsBack_iff_check x).symm

example : ReadsBack ⟨0x4004000000000000⟩ := by decide +kernel
example : ¬ ReadsBack ⟨0x7FF8000000000000⟩ := by decide +kernel

end Doc

theorem map_eq_ok_iff {α β : Type} {f : α → β} {x : Except DecodeError α} {y : β} :
    x.map f = .ok y ↔ ∃ a, x = .ok a ∧ f a = y := by
  cases x <;> simp [Except.map]

/-- A chain of readings succeeds exactly when its first step does and the rest succeeds from
what that step read. -/
theorem bind_eq_ok_iff {α β : Type} {x : Except DecodeError α} {f : α → Except DecodeError β}
    {y : β} : x >>= f = .ok y ↔ ∃ a, x = .ok a ∧ f a = .ok y := by
  cases x <;> simp [bind, Except.bind]

theorem skipBlank_append {cs : List Char} (h : skipBlank cs ≠ []) (rest : List Char) :
    skipBlank (cs ++ rest) = skipBlank cs ++ rest := by
  unfold skipBlank at h ⊢
  rw [List.dropWhile_append, if_neg (by simpa [List.isEmpty_iff] using h)]

/-- A reading that finds a number starts at a minus sign or a digit, took a prefix of its text,
and finds the same number whatever follows that cannot continue it. -/
theorem readDoc_number {fuel room : Nat} {cs r : List Char} {n : Number}
    (h : readDoc fuel room cs = .ok (.number n, r)) :
    ∃ c t, skipBlank cs = c :: t ∧ (c = '-' ∨ isDigit c = true) ∧ r <:+ cs ∧
      ∀ fuel' room' rest, EndsNumber rest →
        readDoc (fuel' + 1) room' (cs ++ rest) = .ok (.number n, r ++ rest) := by
  rcases fuel with _ | fuel
  · simp [readDoc, fail] at h
  unfold readDoc at h
  split at h
  · simp [fail] at h
  rename_i c t hskip
  have hsuffix : c :: t <:+ cs := hskip ▸ List.dropWhile_suffix _
  have hne : skipBlank cs ≠ [] := by simp [hskip]
  split at h
  · obtain ⟨a, -, ha⟩ := map_eq_ok_iff.1 h
    cases ha
  rename_i hn
  split at h
  · obtain ⟨a, -, ha⟩ := map_eq_ok_iff.1 h
    cases ha
  rename_i ht
  split at h
  · obtain ⟨a, -, ha⟩ := map_eq_ok_iff.1 h
    cases ha
  rename_i hf
  simp only [beq_iff_eq] at hn ht hf
  split at h
  · -- a minus sign: the digits after it are read as a negative number
    rename_i hminus
    obtain rfl : c = '-' := by simpa using hminus
    obtain ⟨⟨m, r'⟩, hread, hm⟩ := map_eq_ok_iff.1 h
    cases hm
    obtain ⟨hsuf, hloc⟩ := readNumber_prefix hread
    refine ⟨'-', t, hskip, .inl rfl, hsuf.trans ((List.suffix_cons _ t).trans hsuffix),
      fun fuel' room' rest hr => ?_⟩
    rw [readDoc, skipBlank_append hne, hskip]
    simp [hloc rest hr, Except.map]
  rename_i hminus
  simp only [beq_iff_eq] at hminus
  split at h
  · rename_i hdigit
    obtain ⟨⟨m, r'⟩, hread, hm⟩ := map_eq_ok_iff.1 h
    cases hm
    obtain ⟨hsuf, hloc⟩ := readNumber_prefix hread
    refine ⟨c, t, hskip, .inr hdigit, hsuf.trans hsuffix, fun fuel' room' rest hr => ?_⟩
    have hl := hloc rest hr
    rw [List.cons_append] at hl
    rw [readDoc, skipBlank_append hne, hskip]
    simp [hn, ht, hf, hminus, hdigit, hl, Except.map]
  -- strings, arrays and objects are no numbers
  split at h
  · obtain ⟨a, -, ha⟩ := map_eq_ok_iff.1 h
    cases ha
  split at h
  · split at h
    · cases h
    split at h
    · cases h
    obtain ⟨a, -, ha⟩ := map_eq_ok_iff.1 h
    cases ha
  split at h
  · split at h
    · cases h
    split at h
    · cases h
    obtain ⟨a, -, ha⟩ := map_eq_ok_iff.1 h
    cases ha
  · simp [fail] at h

/-- No number is written with a blank in it. -/
theorem isBlank_of_mem_numberRender (n : Number) {c : Char} (h : c ∈ n.render.toList) :
    isBlank c = false := by
  have hdigits : ∀ m : Nat, ∀ d ∈ (toString m).toList, isBlank d = false := by
    intro m d hd
    have hd' : d ∈ Nat.toDigits 10 m := by simpa using hd
    exact isBlank_of_charIsDigit (Nat.isDigit_of_mem_toDigits (by omega) (by omega) hd')
  cases n with
  | unsigned u => exact hdigits _ c h
  | signed i =>
    simp only [Number.render, Int.toString_eq_repr, Int.repr_eq_if] at h
    split at h
    · exact hdigits _ c (by simpa using h)
    · simp only [String.toList_append, List.mem_append] at h
      rcases h with h | h
      · exact isBlank_of_mem_word (by decide) h
      · exact hdigits _ c (by simpa using h)
  | float x =>
    simp only [Number.render] at h
    split at h
    · exact isBlank_of_mem_render _ x h
    · exact isBlank_of_mem_word (by decide) h

/-- A double that reads back is read back inside any text, when what follows it cannot continue
it; its text starts with a minus sign or a digit. -/
theorem readDoc_float {x : Binary64} (hx : Doc.ReadsBack x) :
    ∃ c t, (Doc.number (.float x)).render.toList = c :: t ∧ (c = '-' ∨ isDigit c = true) ∧
      ∀ fuel room rest, EndsNumber rest →
        readDoc (fuel + 1) room ((Doc.number (.float x)).render.toList ++ rest) =
          .ok (.number (.float x), rest) := by
  unfold Doc.ReadsBack Doc.ofText at hx
  simp only [bind, Except.bind] at hx
  split at hx
  · cases hx
  rename_i p hread
  obtain ⟨d, r⟩ := p
  split at hx
  · cases hx
  rename_i hend
  simp only [pure, Except.pure, Except.ok.injEq] at hx
  subst hx
  have hblank : ∀ b ∈ (Doc.number (.float x)).render.toList, isBlank b = false := fun b hb =>
    isBlank_of_mem_numberRender _ hb
  obtain ⟨c, t, hskip, hc, hsuf, hloc⟩ := readDoc_number hread
  -- the reading stopped at the end: what it left is blank and part of a text without blanks
  have hr : r = [] := by
    rcases r with _ | ⟨b, r⟩
    · rfl
    · have hb := hblank b (hsuf.mem (List.mem_cons_self ..))
      simp [expectEnd, skipBlank_cons r hb, fail] at hend
  subst hr
  have htext : (Doc.number (.float x)).render.toList = c :: t := by
    rcases htext : (Doc.number (.float x)).render.toList with _ | ⟨b, u⟩
    · rw [htext] at hskip
      cases hskip
    · rw [htext, skipBlank_cons u (hblank b (by simp [htext]))] at hskip
      exact hskip
  exact ⟨c, t, htext, hc, fun fuel room rest hr => by simpa using hloc fuel room rest hr⟩

/-! ## Scalars inside a text -/

theorem readDoc_digits (fuel room : Nat) {m : Nat} (hm : m ≤ maxUnsigned) {rest : List Char}
    (hr : EndsNumber rest) :
    readDoc (fuel + 1) room (Nat.toDigits 10 m ++ rest) =
      .ok (.number (.unsigned (UInt64.ofNat m)), rest) := by
  obtain ⟨c, ds, hcds⟩ := List.exists_cons_of_ne_nil (Nat.toDigits_ne_nil (n := m) (b := 10))
  have hmem : c ∈ Nat.toDigits 10 m := by simp [hcds]
  have hc : c.isDigit = true := Nat.isDigit_of_mem_toDigits (by omega) (by omega) hmem
  have hdigit : isDigit c = true := by rw [isDigit_eq_charIsDigit]; exact hc
  -- a digit is none of the letters and signs that start other values
  have hn : c ≠ 'n' := by rintro rfl; simp at hc
  have ht : c ≠ 't' := by rintro rfl; simp at hc
  have hf : c ≠ 'f' := by rintro rfl; simp at hc
  have hm' : c ≠ '-' := by rintro rfl; simp at hc
  have hnum := readNumber_toDigits true hm hr
  rw [hcds, List.cons_append] at hnum ⊢
  simp [readDoc, skipBlank_cons _ (isBlank_of_charIsDigit hc), hn, ht, hf, hm', hdigit, hnum,
    afterInteger_unsigned m hr, Except.map]

theorem readDoc_negative (fuel room : Nat) {m : Nat} (hpos : 0 < m) (hm : m ≤ 2 ^ 63)
    {rest : List Char} (hr : EndsNumber rest) :
    readDoc (fuel + 1) room ('-' :: (Nat.toDigits 10 m ++ rest)) =
      .ok (.number (.signed (Int64.ofInt (-(m : Int)))), rest) := by
  have hnum := readNumber_toDigits false (show m ≤ maxUnsigned by simp [maxUnsigned]; omega) hr
  simp [readDoc, skipBlank_cons _ (show isBlank '-' = false by decide), hnum,
    afterInteger_negative hpos hm hr, Except.map]

/-! ## The text of containers -/

/-- The text of one member of an object. -/
def memberText (m : String × Doc) : List Char := (renderString m.1).toList ++ ':' :: m.2.render.toList

theorem length_memberText (k : String) (d : Doc) :
    (memberText (k, d)).length = (renderString k).length + 1 + d.render.length := by
  simp [memberText, String.length_toList]
  omega

theorem toList_render_array (items : List Doc) :
    (Doc.array items).render.toList = '[' :: ((Doc.renderItems items).toList ++ [']']) := by
  simp [Doc.render]

theorem toList_render_object (members : List (String × Doc)) :
    (Doc.object members).render.toList =
      '\x7b' :: ((Doc.renderMembers members).toList ++ ['\x7d']) := by
  simp [Doc.render]

theorem toList_renderItems_cons (d : Doc) (ds : List Doc) :
    (Doc.renderItems (d :: ds)).toList = d.render.toList ++ ds.flatMap (',' :: ·.render.toList) := by
  induction ds generalizing d with
  | nil => simp [Doc.renderItems]
  | cons e es ih => simp [Doc.renderItems, ih]

theorem toList_renderMembers_cons (m : String × Doc) (ms : List (String × Doc)) :
    (Doc.renderMembers (m :: ms)).toList = memberText m ++ ms.flatMap (',' :: memberText ·) := by
  induction ms generalizing m with
  | nil => simp [Doc.renderMembers, memberText]
  | cons m' ms ih => simp [Doc.renderMembers, memberText, ih]

theorem isBlank_of_sign_or_digit {c : Char} (h : c = '-' ∨ isDigit c = true) :
    isBlank c = false ∧ c ≠ ']' := by
  rcases h with rfl | h
  · decide
  · rw [isDigit_eq_charIsDigit] at h
    exact ⟨isBlank_of_charIsDigit h, by rintro rfl; simp at h⟩

/-- The text of a document starts with a character that is no blank and no closing bracket. -/
theorem render_head (d : Doc) (hfloats : ∀ x ∈ d.floats, Doc.ReadsBack x) :
    ∃ c t, d.render.toList = c :: t ∧ isBlank c = false ∧ c ≠ ']' := by
  -- an integer's text starts with a digit or its minus sign
  have hdigits : ∀ m : Nat, ∃ c t, Nat.toDigits 10 m = c :: t ∧ isDigit c = true := by
    intro m
    obtain ⟨c, t, hct⟩ := List.exists_cons_of_ne_nil (Nat.toDigits_ne_nil (n := m) (b := 10))
    have hmem : c ∈ Nat.toDigits 10 m := by simp [hct]
    exact ⟨c, t, hct, by rw [isDigit_eq_charIsDigit]; exact Nat.isDigit_of_mem_toDigits (by omega) (by omega) hmem⟩
  cases d with
  | null => exact ⟨'n', ['u', 'l', 'l'], by decide, by decide, by decide⟩
  | bool b =>
    cases b
    · exact ⟨'f', ['a', 'l', 's', 'e'], by decide, by decide, by decide⟩
    · exact ⟨'t', ['r', 'u', 'e'], by decide, by decide, by decide⟩
  | number n =>
    cases n with
    | unsigned u =>
      obtain ⟨c, t, hct, hc⟩ := hdigits u.toNat
      exact ⟨c, t, by simp [Doc.render, Number.render, hct], isBlank_of_sign_or_digit (.inr hc)⟩
    | signed i =>
      by_cases hi : 0 ≤ i.toInt
      · obtain ⟨c, t, hct, hc⟩ := hdigits i.toInt.toNat
        exact ⟨c, t, by rw [← hct]; simp [Doc.render, Number.render, Int.repr_eq_if, hi],
          isBlank_of_sign_or_digit (.inr hc)⟩
      · exact ⟨'-', Nat.toDigits 10 (-i.toInt).toNat,
          by simp [Doc.render, Number.render, Int.repr_eq_if, hi], by decide, by decide⟩
    | float x =>
      obtain ⟨c, t, hct, hc, -⟩ := readDoc_float (hfloats x (by simp [Doc.floats]))
      exact ⟨c, t, hct, isBlank_of_sign_or_digit hc⟩
  | string s =>
    exact ⟨'"', s.toList.flatMap escapeChar ++ ['"'], by simp [Doc.render, toList_renderString],
      by decide, by decide⟩
  | array items => exact ⟨'[', _, toList_render_array items, by decide, by decide⟩
  | object members => exact ⟨'\x7b', _, toList_render_object members, by decide, by decide⟩

theorem length_render_pos {d : Doc} (hfloats : ∀ x ∈ d.floats, Doc.ReadsBack x) :
    0 < d.render.length := by
  obtain ⟨c, t, hct, -⟩ := render_head d hfloats
  rw [← String.length_toList, hct]
  simp

/-- The scalars: every document but an array or an object is read back from its text alone. -/
theorem readDoc_scalar {fuel room : Nat} {d : Doc} (hfloats : ∀ x ∈ d.floats, Doc.ReadsBack x)
    (harray : ∀ items, d ≠ .array items) (hobject : ∀ members, d ≠ .object members)
    (hfuel : d.render.length ≤ fuel) {rest : List Char} (hr : EndsNumber rest) :
    readDoc fuel room (d.render.toList ++ rest) = .ok (d.readBack, rest) := by
  obtain ⟨fuel, rfl⟩ : ∃ f, fuel = f + 1 := ⟨fuel - 1, by have := length_render_pos hfloats; omega⟩
  cases d with
  | null =>
    have htext : Doc.null.render.toList = 'n' :: ['u', 'l', 'l'] := by decide
    rw [htext, List.cons_append]
    simp [Doc.readBack, readDoc, skipBlank, isBlank, Except.map]
  | bool b =>
    cases b
    · have htext : (Doc.bool false).render.toList = 'f' :: ['a', 'l', 's', 'e'] := by decide
      rw [htext, List.cons_append]
      simp [Doc.readBack, readDoc, skipBlank, isBlank, Except.map]
    · have htext : (Doc.bool true).render.toList = 't' :: ['r', 'u', 'e'] := by decide
      rw [htext, List.cons_append]
      simp [Doc.readBack, readDoc, skipBlank, isBlank, Except.map]
  | number n =>
    cases n with
    | unsigned u =>
      have h := readDoc_digits fuel room (toNat_le_maxUnsigned u) hr
      simpa [Doc.render, Number.render, Doc.readBack] using h
    | signed i =>
      by_cases hi : 0 ≤ i.toInt
      · -- the digits of a natural number, read back unsigned
        have hm : i.toInt.toNat ≤ maxUnsigned := by
          have := Int64.toInt_lt i
          simp only [maxUnsigned, Nat.pow_eq]
          omega
        have htext : (Doc.number (.signed i)).render.toList = Nat.toDigits 10 i.toInt.toNat := by
          simp [Doc.render, Number.render, Int.repr_eq_if, hi]
        rw [htext]
        simpa [Doc.readBack, hi] using readDoc_digits fuel room hm hr
      · -- a minus sign and the digits of the magnitude
        have hpos : 0 < (-i.toInt).toNat := by omega
        have hm : (-i.toInt).toNat ≤ 2 ^ 63 := by
          have := Int64.le_toInt i
          omega
        have htext : (Doc.number (.signed i)).render.toList =
            '-' :: Nat.toDigits 10 (-i.toInt).toNat := by
          simp [Doc.render, Number.render, Int.repr_eq_if, hi]
        have hvalue : Int64.ofInt (-((-i.toInt).toNat : Int)) = i := by
          rw [show -((-i.toInt).toNat : Int) = i.toInt by omega, Int64.ofInt_toInt]
        have h := readDoc_negative fuel room hpos hm hr
        rw [hvalue] at h
        rw [htext, List.cons_append]
        simpa [Doc.readBack, hi] using h
    | float x =>
      obtain ⟨-, -, -, -, hread⟩ := readDoc_float (hfloats x (by simp [Doc.floats]))
      simpa [Doc.readBack] using hread fuel room rest hr
  | string s =>
    have hquote : isDigit '"' = false := by decide
    simp [Doc.render, Doc.readBack, readDoc, toList_renderString, skipBlank, isBlank, hquote,
      readString_escaped, Except.map]
  | array items => exact absurd rfl (harray items)
  | object members => exact absurd rfl (hobject members)

/-! ## Separators -/

theorem endsNumber_cons {c : Char} (t : List Char) (h : c = ',' ∨ c = ']' ∨ c = '\x7d') :
    EndsNumber (c :: t) := by
  intro c' r hcr
  obtain ⟨rfl, -⟩ := List.cons.inj hcr
  rcases h with rfl | rfl | rfl <;> decide

theorem endsNumber_items (ds : List Doc) (rest : List Char) :
    EndsNumber (ds.flatMap (',' :: ·.render.toList) ++ ']' :: rest) := by
  cases ds with
  | nil => exact endsNumber_cons rest (by simp)
  | cons d ds => exact endsNumber_cons _ (by simp)

theorem endsNumber_members (ms : List (String × Doc)) (rest : List Char) :
    EndsNumber (ms.flatMap (',' :: memberText ·) ++ '\x7d' :: rest) := by
  cases ms with
  | nil => exact endsNumber_cons rest (by simp)
  | cons m ms => exact endsNumber_cons _ (by simp)

theorem enter_of_lt {room : Nat} (h : 1 < room) : enter room = .ok (room - 1) := by
  simp [enter, Nat.not_le.2 h]

theorem nextElement_close (first : Bool) (rest : List Char) :
    nextElement first (']' :: rest) = .ok none := by
  simp [nextElement, skipBlank, isBlank]

theorem nextElement_first {c : Char} (t : List Char) (hc : isBlank c = false) (hb : c ≠ ']') :
    nextElement true (c :: t) = .ok (some (c :: t)) := by
  simp [nextElement, skipBlank_cons t hc, hb]

theorem nextElement_comma {c : Char} (t : List Char) (hc : isBlank c = false) (hb : c ≠ ']') :
    nextElement false (',' :: c :: t) = .ok (some (c :: t)) := by
  have hcomma : skipBlank (',' :: c :: t) = ',' :: c :: t := skipBlank_cons _ (by decide)
  simp only [nextElement, hcomma, skipBlank_cons t hc]
  simp [hb]

theorem closeList_close (rest : List Char) : closeList (']' :: rest) = .ok rest := by
  simp [closeList, skipBlank, isBlank]

theorem nextKey_close (first : Bool) (rest : List Char) :
    nextKey first ('\x7d' :: rest) = .ok none := by
  simp [nextKey, skipBlank, isBlank]

theorem nextKey_first (k : String) (rest : List Char) :
    nextKey true ((renderString k).toList ++ rest) = .ok (some (k, rest)) := by
  simp [nextKey, toList_renderString, skipBlank, isBlank, readString_escaped, Except.map]

theorem nextKey_comma (k : String) (rest : List Char) :
    nextKey false (',' :: ((renderString k).toList ++ rest)) = .ok (some (k, rest)) := by
  simp [nextKey, toList_renderString, skipBlank, isBlank, readString_escaped, Except.map]

theorem readColon_colon (rest : List Char) : readColon (':' :: rest) = .ok rest := by
  simp [readColon, skipBlank, isBlank]

theorem closeObject_close (rest : List Char) : closeObject ('\x7d' :: rest) = .ok rest := by
  simp [closeObject, skipBlank, isBlank]

/-! ## Documents

The text of a document is read back as `readBack`, whatever follows it that cannot continue a
number, given room beyond its depth and fuel up to its length. The induction follows the
document: an array's text is its first element, then a comma before each other one. -/

mutual
theorem readDoc_render : ∀ (d : Doc) (fuel room : Nat) (rest : List Char),
    (∀ x ∈ d.floats, Doc.ReadsBack x) → d.depth < room → d.render.length ≤ fuel →
      EndsNumber rest → readDoc fuel room (d.render.toList ++ rest) = .ok (d.readBack, rest)
  | .array items => by
    intro fuel room rest hfloats hroom hfuel _
    have hlen : (Doc.array items).render.length = (Doc.renderItems items).length + 2 := by
      rw [← String.length_toList, toList_render_array]
      simp [String.length_toList]
    obtain ⟨f, rfl⟩ : ∃ f, fuel = f + 1 := ⟨fuel - 1, by omega⟩
    have hdepth : Doc.depthItems items < room - 1 := by
      simp only [Doc.depth] at hroom
      omega
    have hitems := readItems_render items f (room - 1) rest hfloats hdepth (by omega)
    rw [toList_render_array, List.cons_append, List.append_assoc, List.singleton_append]
    have hbracket : isDigit '[' = false := by decide
    simp [readDoc, skipBlank, isBlank, hbracket, enter_of_lt (show 1 < room by omega), hitems,
      closeList_close, Doc.readBack, Except.map]
  | .object members => by
    intro fuel room rest hfloats hroom hfuel _
    have hlen : (Doc.object members).render.length = (Doc.renderMembers members).length + 2 := by
      rw [← String.length_toList, toList_render_object]
      simp [String.length_toList]
    obtain ⟨f, rfl⟩ : ∃ f, fuel = f + 1 := ⟨fuel - 1, by omega⟩
    have hdepth : Doc.depthMembers members < room - 1 := by
      simp only [Doc.depth] at hroom
      omega
    have hmembers := readMembers_render members f (room - 1) rest hfloats hdepth (by omega)
    rw [toList_render_object, List.cons_append, List.append_assoc, List.singleton_append]
    have hbrace : isDigit '\x7b' = false := by decide
    simp [readDoc, skipBlank, isBlank, hbrace, enter_of_lt (show 1 < room by omega), hmembers,
      closeObject_close, Doc.readBack, KeyMap.ofList, Except.map]
  | .null => fun _ _ _ hfloats _ hfuel hr =>
    readDoc_scalar hfloats (by simp) (by simp) hfuel hr
  | .bool _ => fun _ _ _ hfloats _ hfuel hr =>
    readDoc_scalar hfloats (by simp) (by simp) hfuel hr
  | .number _ => fun _ _ _ hfloats _ hfuel hr =>
    readDoc_scalar hfloats (by simp) (by simp) hfuel hr
  | .string _ => fun _ _ _ hfloats _ hfuel hr =>
    readDoc_scalar hfloats (by simp) (by simp) hfuel hr

theorem readItems_render : ∀ (items : List Doc) (fuel room : Nat) (rest : List Char),
    (∀ x ∈ Doc.floatsItems items, Doc.ReadsBack x) → Doc.depthItems items < room →
      (Doc.renderItems items).length + 1 ≤ fuel →
      readItems fuel room true [] ((Doc.renderItems items).toList ++ ']' :: rest) =
        .ok (Doc.readBackItems items, ']' :: rest)
  | [] => by
    intro fuel room rest _ _ hfuel
    obtain ⟨f, rfl⟩ : ∃ f, fuel = f + 1 := ⟨fuel - 1, by omega⟩
    simp [readItems, Doc.renderItems, nextElement_close, Doc.readBackItems]
  | d :: ds => by
    intro fuel room rest hfloats hroom hfuel
    simp only [Doc.floatsItems, List.mem_append] at hfloats
    simp only [Doc.depthItems] at hroom
    obtain ⟨c, t, hct, hc, hb⟩ := render_head d fun x hx => hfloats x (.inl hx)
    have hpos := length_render_pos fun x hx => hfloats x (.inl hx)
    have hlen : (Doc.renderItems (d :: ds)).length =
        d.render.length + (ds.flatMap (',' :: ·.render.toList)).length := by
      rw [← String.length_toList, toList_renderItems_cons]
      simp [String.length_toList]
    obtain ⟨f, rfl⟩ : ∃ f, fuel = f + 1 := ⟨fuel - 1, by omega⟩
    -- the first element is read where the list starts, then the others after their commas
    have hfirst := readDoc_render d f room _ (fun x hx => hfloats x (.inl hx)) (by omega) (by omega)
      (endsNumber_items ds rest)
    have htext : (Doc.renderItems (d :: ds)).toList ++ ']' :: rest =
        c :: (t ++ (ds.flatMap (',' :: ·.render.toList) ++ ']' :: rest)) := by
      simp [toList_renderItems_cons, hct]
    rw [hct, List.cons_append] at hfirst
    rw [htext]
    simp only [readItems, nextElement_first _ hc hb, hfirst]
    rw [readItems_tail ds f room [d.readBack] rest (fun x hx => hfloats x (.inr hx)) (by omega)
      (by omega)]
    simp [Doc.readBackItems]

theorem readItems_tail : ∀ (ds : List Doc) (fuel room : Nat) (acc : List Doc) (rest : List Char),
    (∀ x ∈ Doc.floatsItems ds, Doc.ReadsBack x) → Doc.depthItems ds < room →
      (ds.flatMap (',' :: ·.render.toList)).length + 1 ≤ fuel →
      readItems fuel room false acc (ds.flatMap (',' :: ·.render.toList) ++ ']' :: rest) =
        .ok (acc.reverse ++ Doc.readBackItems ds, ']' :: rest)
  | [] => by
    intro fuel room acc rest _ _ hfuel
    obtain ⟨f, rfl⟩ : ∃ f, fuel = f + 1 := ⟨fuel - 1, by omega⟩
    simp [readItems, nextElement_close, Doc.readBackItems]
  | d :: ds => by
    intro fuel room acc rest hfloats hroom hfuel
    simp only [Doc.floatsItems, List.mem_append] at hfloats
    simp only [Doc.depthItems] at hroom
    obtain ⟨c, t, hct, hc, hb⟩ := render_head d fun x hx => hfloats x (.inl hx)
    have hpos := length_render_pos fun x hx => hfloats x (.inl hx)
    have hlen : d.render.length + (ds.flatMap (',' :: ·.render.toList)).length + 2 ≤ fuel := by
      simp only [List.flatMap_cons, List.cons_append, List.length_cons, List.length_append,
        String.length_toList] at hfuel
      omega
    obtain ⟨f, rfl⟩ : ∃ f, fuel = f + 1 := ⟨fuel - 1, by omega⟩
    have hnext := readDoc_render d f room _ (fun x hx => hfloats x (.inl hx)) (by omega) (by omega)
      (endsNumber_items ds rest)
    have htext : (d :: ds).flatMap (',' :: ·.render.toList) ++ ']' :: rest =
        ',' :: c :: (t ++ (ds.flatMap (',' :: ·.render.toList) ++ ']' :: rest)) := by
      simp [hct]
    rw [hct, List.cons_append] at hnext
    rw [htext]
    simp only [readItems, nextElement_comma _ hc hb, hnext]
    rw [readItems_tail ds f room (d.readBack :: acc) rest (fun x hx => hfloats x (.inr hx))
      (by omega) (by omega)]
    simp [Doc.readBackItems]

theorem readMembers_render : ∀ (members : List (String × Doc)) (fuel room : Nat) (rest : List Char),
    (∀ x ∈ Doc.floatsMembers members, Doc.ReadsBack x) → Doc.depthMembers members < room →
      (Doc.renderMembers members).length + 1 ≤ fuel →
      readMembers fuel room true [] ((Doc.renderMembers members).toList ++ '\x7d' :: rest) =
        .ok ((Doc.readBackMembers members).foldl (fun m (k, v) => KeyMap.insert k v m) [],
          '\x7d' :: rest)
  | [] => by
    intro fuel room rest _ _ hfuel
    obtain ⟨f, rfl⟩ : ∃ f, fuel = f + 1 := ⟨fuel - 1, by omega⟩
    simp [readMembers, Doc.renderMembers, nextKey_close, Doc.readBackMembers]
  | (k, d) :: ms => by
    intro fuel room rest hfloats hroom hfuel
    simp only [Doc.floatsMembers, List.mem_append] at hfloats
    simp only [Doc.depthMembers] at hroom
    have hlen : (Doc.renderMembers ((k, d) :: ms)).length =
        (renderString k).length + 1 + d.render.length + (ms.flatMap (',' :: memberText ·)).length := by
      rw [← String.length_toList, toList_renderMembers_cons]
      simp [memberText, String.length_toList]
      omega
    obtain ⟨f, rfl⟩ : ∃ f, fuel = f + 1 := ⟨fuel - 1, by omega⟩
    -- the first member is read where the object starts, then the others after their commas
    have hfirst := readDoc_render d f room _ (fun x hx => hfloats x (.inl hx)) (by omega) (by omega)
      (endsNumber_members ms rest)
    have htext : (Doc.renderMembers ((k, d) :: ms)).toList ++ '\x7d' :: rest =
        (renderString k).toList ++ ':' :: (d.render.toList ++ (ms.flatMap (',' :: memberText ·) ++
          '\x7d' :: rest)) := by
      simp [toList_renderMembers_cons, memberText]
    rw [htext]
    simp only [readMembers, nextKey_first, readColon_colon, hfirst]
    rw [readMembers_tail ms f room _ rest (fun x hx => hfloats x (.inr hx)) (by omega) (by omega)]
    simp [Doc.readBackMembers]

theorem readMembers_tail : ∀ (ms : List (String × Doc)) (fuel room : Nat) (acc : List (String × Doc))
    (rest : List Char),
    (∀ x ∈ Doc.floatsMembers ms, Doc.ReadsBack x) → Doc.depthMembers ms < room →
      (ms.flatMap (',' :: memberText ·)).length + 1 ≤ fuel →
      readMembers fuel room false acc (ms.flatMap (',' :: memberText ·) ++ '\x7d' :: rest) =
        .ok ((Doc.readBackMembers ms).foldl (fun m (k, v) => KeyMap.insert k v m) acc,
          '\x7d' :: rest)
  | [] => by
    intro fuel room acc rest _ _ hfuel
    obtain ⟨f, rfl⟩ : ∃ f, fuel = f + 1 := ⟨fuel - 1, by omega⟩
    simp [readMembers, nextKey_close, Doc.readBackMembers]
  | (k, d) :: ms => by
    intro fuel room acc rest hfloats hroom hfuel
    simp only [Doc.floatsMembers, List.mem_append] at hfloats
    simp only [Doc.depthMembers] at hroom
    have hlen : (renderString k).length + 1 + d.render.length +
        (ms.flatMap (',' :: memberText ·)).length + 2 ≤ fuel := by
      simp only [List.flatMap_cons, List.cons_append, List.length_cons, List.length_append,
        length_memberText] at hfuel
      omega
    obtain ⟨f, rfl⟩ : ∃ f, fuel = f + 1 := ⟨fuel - 1, by omega⟩
    have hnext := readDoc_render d f room _ (fun x hx => hfloats x (.inl hx)) (by omega) (by omega)
      (endsNumber_members ms rest)
    have htext : ((k, d) :: ms).flatMap (',' :: memberText ·) ++ '\x7d' :: rest =
        ',' :: ((renderString k).toList ++ ':' :: (d.render.toList ++
          (ms.flatMap (',' :: memberText ·) ++ '\x7d' :: rest))) := by
      simp [memberText]
    rw [htext]
    simp only [readMembers, nextKey_comma, readColon_colon, hnext]
    rw [readMembers_tail ms f room _ rest (fun x hx => hfloats x (.inr hx)) (by omega) (by omega)]
    simp [Doc.readBackMembers]
end

end FilterResolution.Json
