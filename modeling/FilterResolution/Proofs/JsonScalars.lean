import FilterResolution.Json.Reader
import Mathlib

/-! # Scalars read back from their text

A written string is read back through its escapes, whatever follows its closing quote. The
number reader takes a prefix of its text and does not look past it, provided what follows
cannot continue a number (`EndsNumber`); the digits of an integer are read back as its value,
and no number is written with a blank in it.
-/

namespace FilterResolution.Json

open FilterResolution.Number

theorem skipBlank_cons {c : Char} (cs : List Char) (h : isBlank c = false) :
    skipBlank (c :: cs) = c :: cs := by
  simp [skipBlank, h]

@[simp] theorem expectWord_nil (cs : List Char) : expectWord [] cs = .ok cs := rfl

@[simp] theorem expectWord_cons (w : Char) (ws cs : List Char) :
    expectWord (w :: ws) (w :: cs) = expectWord ws cs := by
  simp [expectWord]

theorem hexValue_hexDigit (n : Nat) : hexValue (hexDigit n) = some (n % 16) := by
  have hdigits : ∀ k < 16, hexValue k.digitChar = some k := by decide
  rw [hexDigit, Nat.toDigits_of_lt_base (Nat.mod_lt n (by omega))]
  exact hdigits _ (Nat.mod_lt n (by omega))

theorem readCodeEscape_control {c : Char} (hc : c.toNat < 0x20) (rest : List Char) :
    readCodeEscape ('0' :: '0' :: hexDigit (c.toNat / 16) :: hexDigit c.toNat :: rest) =
      .ok (c, rest) := by
  have hzero : hexValue '0' = some 0 := rfl
  have hn : ((0 * 16 + 0) * 16 + c.toNat / 16 % 16) * 16 + c.toNat % 16 = c.toNat := by omega
  have hsur : ¬ (0xDC00 ≤ c.toNat ∧ c.toNat ≤ 0xDFFF) := by omega
  have hhex : readHex4 ('0' :: '0' :: hexDigit (c.toNat / 16) :: hexDigit c.toNat :: rest) =
      .ok (c.toNat, rest) := by
    simp only [readHex4, hzero, hexValue_hexDigit, hn]
  unfold readCodeEscape
  rw [hhex]
  simp only [bind, Except.bind, if_neg hsur, if_pos (Or.inl (show c.toNat < 0xD800 by omega))]
  simp [pure, Except.pure]

/-- One written character is read back in one step, whatever follows it. -/
theorem readStringBody_escapeChar (fuel : Nat) (acc : List Char) (c : Char) (rest : List Char) :
    readStringBody (fuel + 1) acc (escapeChar c ++ rest) = readStringBody fuel (c :: acc) rest := by
  unfold escapeChar
  split
  all_goals try simp [readStringBody, readEscape]
  rename_i hquote hback _ _ _ _ _
  split
  · rename_i hc
    simp [readStringBody, readEscape, readCodeEscape_control hc]
  · rename_i hc
    simp [readStringBody, hc, if_neg hquote, if_neg hback]

theorem length_le_flatMap_escapeChar (s : List Char) : s.length ≤ (s.flatMap escapeChar).length := by
  induction s with
  | nil => simp
  | cons c s ih =>
    have hc : 1 ≤ (escapeChar c).length := by
      unfold escapeChar
      split <;> (try split) <;> simp
    simp only [List.flatMap_cons, List.length_append, List.length_cons]
    omega

theorem readStringBody_escaped (rest : List Char) :
    ∀ (s acc : List Char) (fuel : Nat), s.length < fuel →
      readStringBody fuel acc (s.flatMap escapeChar ++ '"' :: rest) =
        .ok (String.ofList (acc.reverse ++ s), rest)
  | [], acc, fuel + 1, _ => by simp [readStringBody]
  | c :: s, acc, fuel + 1, h => by
    rw [List.flatMap_cons, List.append_assoc, readStringBody_escapeChar,
      readStringBody_escaped rest s (c :: acc) fuel (by simp at h; omega)]
    simp

theorem toList_renderString (s : String) :
    (renderString s).toList = '"' :: (s.toList.flatMap escapeChar ++ ['"']) := by
  simp [renderString]

/-- A written string is read back after its opening quote, whatever follows it. -/
theorem readString_escaped (s : String) (rest : List Char) :
    readString (s.toList.flatMap escapeChar ++ '"' :: rest) = .ok (s, rest) := by
  have hlen := length_le_flatMap_escapeChar s.toList
  rw [readString, readStringBody_escaped rest s.toList [] _ (by simp only [List.length_append, List.length_cons]; omega)]
  simp

theorem isDigit_eq_charIsDigit (c : Char) : isDigit c = c.isDigit := by
  simp [isDigit, Char.isDigit, Char.le_def]

theorem isBlank_of_charIsDigit {c : Char} (h : c.isDigit = true) : isBlank c = false := by
  simp only [Char.isDigit, Bool.and_eq_true, decide_eq_true_eq] at h
  simp only [isBlank, Bool.or_eq_false_iff, beq_eq_false_iff_ne]
  refine ⟨⟨⟨?_, ?_⟩, ?_⟩, ?_⟩ <;> rintro rfl <;> simp at h

theorem head_toDigits_ne_zero : ∀ {m : Nat}, 0 < m → ∀ {c : Char} {ds : List Char},
    Nat.toDigits 10 m = c :: ds → c ≠ '0' := by
  intro m
  induction m using Nat.strongRecOn with
  | ind m ih =>
    intro hm c ds h
    rw [Nat.toDigits_eq_if (by omega)] at h
    split at h
    · rename_i hlt
      simp only [List.cons.injEq] at h
      rw [← h.1]
      have hdig : ∀ k < 10, 0 < k → Nat.digitChar k ≠ '0' := by decide
      exact hdig m hlt hm
    · rename_i hge
      obtain ⟨c', ds', hc'⟩ := List.exists_cons_of_ne_nil (Nat.toDigits_ne_nil (n := m / 10) (b := 10))
      rw [hc', List.cons_append, List.cons.injEq] at h
      rw [← h.1]
      exact ih (m / 10) (by omega) (by omega) hc'

theorem toNat_le_maxUnsigned (u : UInt64) : u.toNat ≤ maxUnsigned := by
  have := u.toNat_lt
  simp only [maxUnsigned, Nat.pow_eq]
  omega

theorem le_ofDigitChars (ds : List Char) (s : Nat) : s ≤ Nat.ofDigitChars 10 ds s := by
  rw [Nat.ofDigitChars_eq_ofDigitChars_zero]
  have := Nat.one_le_pow ds.length 10 (by omega)
  have : s ≤ 10 ^ ds.length * s := Nat.le_mul_of_pos_left s this
  omega

/-- Digits whose value fits in 64 bits are read one by one into their value. -/
theorem readDigits_append (positive : Bool) (rest : List Char) :
    ∀ (ds : List Char) (s : Nat), (∀ c ∈ ds, c.isDigit = true) →
      Nat.ofDigitChars 10 ds s ≤ maxUnsigned →
      readDigits positive s (ds ++ rest) = readDigits positive (Nat.ofDigitChars 10 ds s) rest
  | [], s, _, _ => rfl
  | c :: ds, s, hds, hfit => by
    rw [Nat.ofDigitChars_cons] at hfit ⊢
    have hstep : s * 10 + digitValue c ≤ maxUnsigned := by
      have := le_ofDigitChars ds (10 * s + (c.toNat - '0'.toNat))
      simp only [digitValue]
      omega
    have hc : isDigit c = true := by
      rw [isDigit_eq_charIsDigit]
      exact hds c (List.mem_cons_self ..)
    simp only [List.cons_append, readDigits, hc, if_true, gt_iff_lt, Nat.not_lt.2 hstep, if_false]
    rw [readDigits_append positive rest ds _ (fun d hd => hds d (List.mem_cons_of_mem c hd))
      (by simpa [digitValue, Nat.mul_comm] using hfit)]
    simp [digitValue, Nat.mul_comm]

/-- Text that cannot continue a number: the end, or a character that is no digit, point or
exponent mark. -/
def EndsNumber (cs : List Char) : Prop :=
  ∀ c r, cs = c :: r → isDigit c = false ∧ c ≠ '.' ∧ c ≠ 'e' ∧ c ≠ 'E'

theorem dropWhile_isDigit_of_endsNumber {rest : List Char} (h : EndsNumber rest) :
    rest.dropWhile isDigit = rest := by
  rcases rest with _ | ⟨c, r⟩
  · rfl
  · simp [(h c r rfl).1]

theorem takeWhile_isDigit_append {rest : List Char} (h : EndsNumber rest) (cs : List Char) :
    (cs ++ rest).takeWhile isDigit = cs.takeWhile isDigit := by
  have hnil : rest.takeWhile isDigit = [] := by
    rcases rest with _ | ⟨c, r⟩
    · rfl
    · simp [(h c r rfl).1]
  rw [List.takeWhile_append]
  split
  · rename_i hlen
    rw [hnil, List.append_nil]
    exact (List.takeWhile_prefix isDigit).eq_of_length hlen |>.symm
  · rfl

theorem dropWhile_isDigit_append {rest : List Char} (h : EndsNumber rest) (cs : List Char) :
    (cs ++ rest).dropWhile isDigit = cs.dropWhile isDigit ++ rest := by
  rw [List.dropWhile_append, dropWhile_isDigit_of_endsNumber h]
  split
  · rename_i hnil
    simp only [List.isEmpty_iff] at hnil
    simp [hnil]
  · rfl

/-- `read` took a prefix of `cs` to find `n`, and finds `n` as well when the text goes on with
anything that cannot continue a number. -/
def ReadsPrefix (read : List Char → Step Number) (cs : List Char) (n : Number)
    (r : List Char) : Prop :=
  r <:+ cs ∧ ∀ rest, EndsNumber rest → read (cs ++ rest) = .ok (n, r ++ rest)

/-- A double that was read with `a` left is read with `a ++ rest` left when `rest` follows. -/
theorem map_pair_append {x : Except DecodeError Number} {a r : List Char} {n : Number}
    (h : x.map (·, a) = .ok (n, r)) (rest : List Char) :
    x.map (·, a ++ rest) = .ok (n, r ++ rest) := by
  cases x <;> simp_all [Except.map]

theorem map_pair_left {x : Except DecodeError Number} {a r : List Char} {n : Number}
    (h : x.map (·, a) = .ok (n, r)) : r = a := by
  cases x <;> simp_all [Except.map]

variable {positive : Bool} {n : Number} {r : List Char}

theorem readExponent_prefix {s : Nat} {start : Int} {cs : List Char}
    (h : readExponent positive s start cs = .ok (n, r)) :
    ReadsPrefix (readExponent positive s start) cs n r := by
  unfold readExponent at h
  split at h
  rename_i up u hsign
  rcases u with _ | ⟨d, v⟩
  · simp [fail] at h
  have hsuffix : d :: v <:+ cs := by
    split at hsign <;> simp_all
  refine ⟨?_, fun rest hr => ?_⟩
  · -- every branch that returns leaves the text after the exponent's digits
    have hleft : r = v.dropWhile isDigit := by
      simp only at h
      split at h
      · simp [fail] at h
      · split at h
        · split at h
          · simp [fail] at h
          · simp only [Except.ok.injEq, Prod.mk.injEq] at h
            exact h.2.symm
        · simp only [Except.map] at h
          split at h
          · simp at h
          · simp only [Except.ok.injEq, Prod.mk.injEq] at h
            exact h.2.symm
    rw [hleft]
    exact (List.dropWhile_suffix _).trans ((List.suffix_cons d v).trans hsuffix)
  · unfold readExponent
    split
    rename_i up' u' hsign'
    -- the sign is read alike, and the digits after it go on into `rest`
    have hsame : up' = up ∧ u' = d :: (v ++ rest) := by
      rcases cs with _ | ⟨c, t⟩
      · simp at hsign
      · simp only [List.cons_append] at hsign'
        split at hsign <;> split at hsign' <;> simp_all
    obtain ⟨rfl, rfl⟩ := hsame
    simp only [takeWhile_isDigit_append hr, dropWhile_isDigit_append hr] at h ⊢
    split at h
    · simp [fail] at h
    · rename_i hd
      rw [if_neg hd]
      rcases he : exponentDigits (digitValue d) (List.takeWhile isDigit v) with _ | e <;>
        simp only [he] at h ⊢
      · split at h
        · simp [fail] at h
        · rename_i hup
          rw [if_neg hup]
          simp_all
      · exact map_pair_append h rest

theorem ne_mark_of_endsNumber {rest : List Char} (hr : EndsNumber rest) {m : Char}
    (hm : m = '.' ∨ m = 'e' ∨ m = 'E') : ∀ t, rest ≠ m :: t := by
  intro t ht
  obtain ⟨-, hdot, he, hE⟩ := hr m t ht
  rcases hm with rfl | rfl | rfl <;> contradiction

/-- A text that goes on after `cs` does not start with a point or an exponent mark when neither
`cs` nor, if `cs` is empty, the rest does. -/
theorem ne_mark_append {cs rest : List Char} (hr : EndsNumber rest) {m : Char}
    (hm : m = '.' ∨ m = 'e' ∨ m = 'E') (h : ∀ t, cs ≠ m :: t) : ∀ t, cs ++ rest ≠ m :: t := by
  intro t ht
  rcases cs with _ | ⟨c, u⟩
  · exact ne_mark_of_endsNumber hr hm t ht
  · simp only [List.cons_append, List.cons.injEq] at ht
    exact h u (by rw [ht.1])

theorem readDroppedDigits_prefix {s : Nat} {e : Int} {cs : List Char}
    (h : readDroppedDigits positive s e cs = .ok (n, r)) :
    ReadsPrefix (readDroppedDigits positive s e) cs n r := by
  have hdrop : cs.dropWhile isDigit <:+ cs := List.dropWhile_suffix _
  unfold readDroppedDigits at h
  split at h
  case h_1 | h_2 =>
    rename_i t hD
    obtain ⟨hsuf, hloc⟩ := readExponent_prefix h
    rw [hD] at hdrop
    refine ⟨hsuf.trans ((List.suffix_cons _ _).trans hdrop), fun rest hr => ?_⟩
    simp only [readDroppedDigits, dropWhile_isDigit_append hr, hD, List.cons_append]
    exact hloc rest hr
  · rename_i D he hE
    refine ⟨map_pair_left h ▸ hdrop, fun rest hr => ?_⟩
    unfold readDroppedDigits
    rw [dropWhile_isDigit_append hr]
    split
    · rename_i t ht
      exact absurd ht (ne_mark_append hr (.inr (.inl rfl)) he t)
    · rename_i t ht
      exact absurd ht (ne_mark_append hr (.inr (.inr rfl)) hE t)
    · exact map_pair_append h rest

theorem readFraction_prefix {e0 : Int} {cs : List Char} :
    ∀ {s : Nat} {shift : Int}, readFraction positive e0 s shift cs = .ok (n, r) →
      ReadsPrefix (readFraction positive e0 s shift) cs n r := by
  induction cs with
  | nil =>
    intro s shift h
    simp only [readFraction] at h
    split at h
    · simp [fail] at h
    · rename_i hshift
      refine ⟨map_pair_left h ▸ List.suffix_refl _, fun rest hr => ?_⟩
      rcases rest with _ | ⟨c, t⟩
      · simpa [readFraction, hshift] using h
      · obtain ⟨hc, hdot, he, hE⟩ := hr c t rfl
        simpa [readFraction, hc, hshift, he, hE] using map_pair_append h (c :: t)
  | cons c t ih =>
    intro s shift h
    simp only [readFraction] at h
    split at h
    · rename_i hc
      split at h
      · -- the significand is full: the remaining digits are dropped
        rename_i hover
        obtain ⟨hsuf, hloc⟩ := readDroppedDigits_prefix h
        exact ⟨hsuf, fun rest hr => by simpa [readFraction, hc, hover] using hloc rest hr⟩
      · rename_i hover
        obtain ⟨hsuf, hloc⟩ := ih h
        exact ⟨hsuf.trans (List.suffix_cons c t), fun rest hr => by
          simpa [readFraction, hc, hover] using hloc rest hr⟩
    · rename_i hc
      split at h
      · simp [fail] at h
      · rename_i hshift
        split at h
        · rename_i hmark
          obtain ⟨hsuf, hloc⟩ := readExponent_prefix h
          exact ⟨hsuf.trans (List.suffix_cons c t), fun rest hr => by
            simpa [readFraction, hc, hshift, hmark] using hloc rest hr⟩
        · rename_i hmark
          refine ⟨map_pair_left h ▸ List.suffix_refl _, fun rest hr => ?_⟩
          simpa [readFraction, hc, hshift, hmark] using map_pair_append h rest

/-- An integer's number does not depend on the text after it, unless that text goes on with a
fraction or an exponent. -/
theorem afterInteger_integer (s : Nat) {cs : List Char} (hdot : ∀ t, cs ≠ '.' :: t)
    (he : ∀ t, cs ≠ 'e' :: t) (hE : ∀ t, cs ≠ 'E' :: t) :
    afterInteger positive s cs = (afterInteger positive s []).map fun (m, _) => (m, cs) := by
  unfold afterInteger
  split
  · exact absurd rfl (hdot _)
  · exact absurd rfl (he _)
  · exact absurd rfl (hE _)
  · split_ifs <;> rfl

theorem afterInteger_prefix {s : Nat} {cs : List Char}
    (h : afterInteger positive s cs = .ok (n, r)) : ReadsPrefix (afterInteger positive s) cs n r := by
  have hread := h
  unfold afterInteger at h
  split at h
  · obtain ⟨hsuf, hloc⟩ := readFraction_prefix h
    exact ⟨hsuf.trans (List.suffix_cons _ _), fun rest hr => by simpa [afterInteger] using hloc rest hr⟩
  case h_2 | h_3 =>
    obtain ⟨hsuf, hloc⟩ := readExponent_prefix h
    exact ⟨hsuf.trans (List.suffix_cons _ _), fun rest hr => by simpa [afterInteger] using hloc rest hr⟩
  · rename_i hdot he hE
    -- an integer: its number is the one read at the end of the text
    rw [afterInteger_integer s hdot he hE] at hread
    rcases hz : afterInteger positive s [] with err | ⟨m, z⟩ <;>
      simp only [hz, Except.map, Except.ok.injEq, Prod.mk.injEq, reduceCtorEq] at hread
    obtain ⟨rfl, rfl⟩ := hread
    refine ⟨List.suffix_refl _, fun rest hr => ?_⟩
    rw [afterInteger_integer s (ne_mark_append hr (.inl rfl) hdot) (ne_mark_append hr (.inr (.inl rfl)) he)
      (ne_mark_append hr (.inr (.inr rfl)) hE), hz]
    rfl

theorem readLongInteger_prefix {s : Nat} {cs : List Char}
    (h : readLongInteger positive s cs = .ok (n, r)) :
    ReadsPrefix (readLongInteger positive s) cs n r := by
  have hdrop : cs.dropWhile isDigit <:+ cs := List.dropWhile_suffix _
  unfold readLongInteger at h
  split at h
  · rename_i t hD
    obtain ⟨hsuf, hloc⟩ := readFraction_prefix h
    rw [hD] at hdrop
    refine ⟨hsuf.trans ((List.suffix_cons _ _).trans hdrop), fun rest hr => ?_⟩
    simp only [readLongInteger, dropWhile_isDigit_append hr, takeWhile_isDigit_append hr, hD,
      List.cons_append]
    exact hloc rest hr
  case h_2 | h_3 =>
    rename_i t hD
    obtain ⟨hsuf, hloc⟩ := readExponent_prefix h
    rw [hD] at hdrop
    refine ⟨hsuf.trans ((List.suffix_cons _ _).trans hdrop), fun rest hr => ?_⟩
    simp only [readLongInteger, dropWhile_isDigit_append hr, takeWhile_isDigit_append hr, hD,
      List.cons_append]
    exact hloc rest hr
  · rename_i D hdot he hE
    refine ⟨map_pair_left h ▸ hdrop, fun rest hr => ?_⟩
    unfold readLongInteger
    rw [dropWhile_isDigit_append hr, takeWhile_isDigit_append hr]
    split
    · rename_i t ht
      exact absurd ht (ne_mark_append hr (.inl rfl) hdot t)
    · rename_i t ht
      exact absurd ht (ne_mark_append hr (.inr (.inl rfl)) he t)
    · rename_i t ht
      exact absurd ht (ne_mark_append hr (.inr (.inr rfl)) hE t)
    · exact map_pair_append h rest

/-- With nothing left to read, the digit loop reads an integer as `afterInteger` does. -/
theorem readDigits_of_endsNumber {s : Nat} {rest : List Char} (hr : EndsNumber rest) :
    readDigits positive s rest = afterInteger positive s rest := by
  rcases rest with _ | ⟨c, t⟩
  · rfl
  · simp [readDigits, (hr c t rfl).1]

theorem readDigits_prefix {cs : List Char} :
    ∀ {s : Nat}, readDigits positive s cs = .ok (n, r) → ReadsPrefix (readDigits positive s) cs n r := by
  induction cs with
  | nil =>
    intro s h
    obtain ⟨hsuf, hloc⟩ := afterInteger_prefix h
    exact ⟨hsuf, fun rest hr => by rw [List.nil_append, readDigits_of_endsNumber hr]; exact hloc rest hr⟩
  | cons c t ih =>
    intro s h
    simp only [readDigits] at h
    split at h
    · rename_i hc
      split at h
      · rename_i hover
        obtain ⟨hsuf, hloc⟩ := readLongInteger_prefix h
        exact ⟨hsuf, fun rest hr => by simpa [readDigits, hc, hover] using hloc rest hr⟩
      · rename_i hover
        obtain ⟨hsuf, hloc⟩ := ih h
        exact ⟨hsuf.trans (List.suffix_cons c t), fun rest hr => by
          simpa [readDigits, hc, hover] using hloc rest hr⟩
    · rename_i hc
      obtain ⟨hsuf, hloc⟩ := afterInteger_prefix h
      exact ⟨hsuf, fun rest hr => by simpa [readDigits, hc] using hloc rest hr⟩

/-- The number reader takes a prefix of its text and does not look past it. -/
theorem readNumber_prefix {cs : List Char} (h : readNumber positive cs = .ok (n, r)) :
    ReadsPrefix (readNumber positive) cs n r := by
  rcases cs with _ | ⟨c, t⟩
  · simp [readNumber, fail] at h
  simp only [readNumber] at h
  split at h
  · rename_i hzero
    split at h
    · rename_i d u
      split at h
      · simp [fail] at h
      · rename_i hd
        obtain ⟨hsuf, hloc⟩ := afterInteger_prefix h
        exact ⟨hsuf.trans (List.suffix_cons c _), fun rest hr => by
          simpa [readNumber, hzero, hd] using hloc rest hr⟩
    · obtain ⟨hsuf, hloc⟩ := afterInteger_prefix h
      refine ⟨hsuf.trans (List.suffix_cons c _), fun rest hr => ?_⟩
      rcases rest with _ | ⟨d, u⟩
      · simpa [readNumber, hzero] using hloc [] hr
      · simpa [readNumber, hzero, (hr d u rfl).1] using hloc (d :: u) hr
  · rename_i hzero
    split at h
    · rename_i hc
      obtain ⟨hsuf, hloc⟩ := readDigits_prefix h
      exact ⟨hsuf.trans (List.suffix_cons c _), fun rest hr => by
        simpa [readNumber, hzero, hc] using hloc rest hr⟩
    · simp [fail] at h

theorem mem_place {layout : Layout} {ds : List Char} {p : Int} {c : Char}
    (h : c ∈ layout.place ds p) :
    c ∈ ds ∨ c ∈ ['0', '.', 'e', '-', '+'] ∨ ∃ m, c ∈ Nat.toDigits 10 m := by
  unfold Layout.place at h
  split at h
  · -- positional: digits, zeros and a point
    split_ifs at h <;> simp only [Layout.zeros, List.mem_append, List.mem_cons, List.mem_replicate] at h
    · rcases h with ((rfl | rfl | h) | ⟨-, rfl⟩) | h <;> simp_all
    all_goals
      split at h
      · simp only [List.mem_append, List.mem_cons] at h
        rcases h with h | rfl | h
        · exact .inl (List.mem_of_mem_take h)
        · simp
        · exact .inl (List.mem_of_mem_drop h)
      · simp only [List.mem_append, List.mem_replicate, List.mem_cons] at h
        rcases h with (h | ⟨-, rfl⟩) | h
        · exact .inl h
        · simp
        · right; left
          simp only [List.not_mem_nil, or_false] at h <;>
            rcases h with rfl | rfl <;> simp
  · -- exponent form: a mantissa with a point, the mark, a sign and the exponent's digits
    have hsign : c ∈ (if p - 1 < 0 then ['-'] else if layout.plusExponent then ['+'] else []) →
        c ∈ ['0', '.', 'e', '-', '+'] := by
      split_ifs <;> simp_all
    -- the mantissa is the digits, with a point after the first when there are two or more
    split at h <;> simp only [List.mem_append, List.mem_cons] at h
    · rcases h with (((rfl | rfl | rfl | h) | rfl | h) | h)
      · simp
      · simp
      · simp
      · exact .inl (by simp [h])
      · simp
      · exact .inr (.inl (hsign h))
      · exact .inr (.inr ⟨_, h⟩)
    · rcases h with ((h | rfl | h) | h)
      · exact .inl h
      · simp
      · exact .inr (.inl (hsign h))
      · exact .inr (.inr ⟨_, h⟩)

/-- A character of a fixed word without blanks is no blank. -/
theorem isBlank_of_mem_word {w : List Char} (hw : w.all (fun d => !isBlank d) = true) {c : Char}
    (h : c ∈ w) : isBlank c = false := by
  simpa using List.all_eq_true.1 hw c h

/-- No double is written with a blank in it. -/
theorem isBlank_of_mem_render (layout : Layout) (x : Binary64) {c : Char}
    (h : c ∈ (layout.render x).toList) : isBlank c = false := by
  have hdigits : ∀ m, ∀ d ∈ Nat.toDigits 10 m, isBlank d = false := fun m d hd =>
    isBlank_of_charIsDigit (Nat.isDigit_of_mem_toDigits (by omega) (by omega) hd)
  unfold Layout.render at h
  have hplace : ∀ {ds : List Char} {p : Int}, (∀ d ∈ ds, isBlank d = false) → ∀ d ∈ layout.place ds p,
      isBlank d = false := by
    intro ds p hds d hd
    rcases mem_place hd with hd | hd | ⟨m, hd⟩
    · exact hds d hd
    · exact isBlank_of_mem_word (by decide) hd
    · exact hdigits m d hd
  -- the text is a fixed word, or a sign and placed digits
  split_ifs at h <;> try simp only [String.toList_append, List.mem_append, String.toList_ofList] at h
  · exact isBlank_of_mem_word (by decide) h
  all_goals rcases h with h | h
  any_goals (refine isBlank_of_mem_word ?_ h; decide)
  all_goals exact hplace (hdigits _) c h

theorem readNumber_toDigits (positive : Bool) {m : Nat} (hm : m ≤ maxUnsigned) {rest : List Char}
    (hr : EndsNumber rest) : readNumber positive (Nat.toDigits 10 m ++ rest) = afterInteger positive m rest := by
  obtain ⟨c, ds, hcds⟩ := List.exists_cons_of_ne_nil (Nat.toDigits_ne_nil (n := m) (b := 10))
  have hall : ∀ d ∈ c :: ds, d.isDigit = true := fun d hd =>
    Nat.isDigit_of_mem_toDigits (by omega) (by omega) (hcds ▸ hd)
  have hvalue : Nat.ofDigitChars 10 ds (digitValue c) = m := by
    have := Nat.ofDigitChars_ten_toDigits (n := m)
    rw [hcds, Nat.ofDigitChars_cons] at this
    simpa [digitValue] using this
  rcases Nat.eq_zero_or_pos m with rfl | hpos
  · -- zero is written as one digit
    rw [Nat.toDigits_zero] at hcds
    simp only [List.cons.injEq] at hcds
    obtain ⟨rfl, rfl⟩ := hcds
    rcases rest with _ | ⟨d, t⟩
    · rfl
    · simp [readNumber, (hr d t rfl).1]
  · have hc : c ≠ '0' := head_toDigits_ne_zero hpos hcds
    have hcdigit : isDigit c = true := by rw [isDigit_eq_charIsDigit]; exact hall c (List.mem_cons_self ..)
    rw [hcds, List.cons_append]
    simp only [readNumber, beq_iff_eq, hc, if_false, hcdigit, if_true]
    rw [readDigits_append positive rest ds _ (fun d hd => hall d (List.mem_cons_of_mem c hd))
      (by rw [hvalue]; exact hm), hvalue, readDigits_of_endsNumber hr]

theorem afterInteger_unsigned (m : Nat) {rest : List Char} (hr : EndsNumber rest) :
    afterInteger true m rest = .ok (.unsigned (UInt64.ofNat m), rest) := by
  rw [afterInteger_integer m (ne_mark_of_endsNumber hr (.inl rfl))
    (ne_mark_of_endsNumber hr (.inr (.inl rfl))) (ne_mark_of_endsNumber hr (.inr (.inr rfl)))]
  rfl

theorem afterInteger_negative {m : Nat} (hpos : 0 < m) (hm : m ≤ 2 ^ 63) {rest : List Char}
    (hr : EndsNumber rest) :
    afterInteger false m rest = .ok (.signed (Int64.ofInt (-(m : Int))), rest) := by
  rw [afterInteger_integer m (ne_mark_of_endsNumber hr (.inl rfl))
    (ne_mark_of_endsNumber hr (.inr (.inl rfl))) (ne_mark_of_endsNumber hr (.inr (.inr rfl)))]
  simp [afterInteger, Nat.pos_iff_ne_zero.1 hpos, show m ≤ Nat.pow 2 63 from hm, Except.map]

end FilterResolution.Json
