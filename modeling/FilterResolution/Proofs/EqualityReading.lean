import FilterResolution.Virtual.Context

/-! # Reading equality values off predicates

A resolver reads the values a list of predicates on one field accepts through
`equalityValues`: only `equals` and `equalsAny` name values, so the loop stops at the first
predicate of another kind and refuses it, naming its field and kind. Otherwise the result is every
value, predicate after predicate, and no value of a predicate after a refused one is ever read.
Both context accessors, on a virtual field and on a parent field, read this way.
-/

namespace FilterResolution.Filter

namespace Condition

/-- Whether a condition is an `equals` or an `equalsAny`, the kinds that name values. -/
def IsEquality : Condition → Prop
  | .equals _ => True
  | .equalsAny _ => True
  | _ => False

/-- The values an equality condition names: its one value, or its list. -/
def namedValues : Condition → List Value
  | .equals v => [v]
  | .equalsAny vs => vs
  | _ => []

end Condition

theorem Predicate.equalityValues_of_isEquality {p : Predicate} (h : p.condition.IsEquality) :
    p.equalityValues = some p.condition.namedValues := by
  unfold Predicate.equalityValues
  cases hc : p.condition <;> simp_all [Condition.IsEquality, Condition.namedValues]

theorem Predicate.equalityValues_of_not_isEquality {p : Predicate}
    (h : ¬ p.condition.IsEquality) : p.equalityValues = none := by
  unfold Predicate.equalityValues
  cases hc : p.condition <;> simp_all [Condition.IsEquality]

end FilterResolution.Filter

namespace FilterResolution.Virtual

open FilterResolution.Filter

/-- `r` is what reading the equality values of `ps` must give: when every predicate is an
`equals` or `equalsAny`, the values each names, in predicate order; otherwise the refusal naming
the field and kind of the first predicate of another kind. -/
structure ReadsEqualities (ps : List Predicate) (r : Except ResolveError (List Value)) : Prop where
  all_equalities : (∀ p ∈ ps, p.condition.IsEquality) →
    r = .ok (ps.flatMap (·.condition.namedValues))
  first_other : ∀ pre q post, ps = pre ++ q :: post → (∀ p ∈ pre, p.condition.IsEquality) →
    ¬ q.condition.IsEquality → r = .error (.unsupportedPredicateType q.field q.condition.name)

/-- When every predicate is an equality, the loop runs to the end and gathers every value. -/
theorem equalityValues_of_all :
    ∀ {ps : List Predicate}, (∀ p ∈ ps, p.condition.IsEquality) →
      equalityValues ps = .ok (ps.flatMap (·.condition.namedValues))
  | [], _ => rfl
  | p :: rest, h => by
    have hp := Predicate.equalityValues_of_isEquality (h p (List.mem_cons_self ..))
    have hrest := equalityValues_of_all fun q hq => h q (List.mem_cons_of_mem p hq)
    rw [equalityValues, hp, hrest]
    rfl

/-- Past equalities only, the loop stops at the first predicate of another kind and refuses it;
what follows is never read. -/
theorem equalityValues_of_first_other {q : Predicate} {post : List Predicate}
    (hq : ¬ q.condition.IsEquality) :
    ∀ {pre : List Predicate}, (∀ p ∈ pre, p.condition.IsEquality) →
      equalityValues (pre ++ q :: post) = .error (.unsupportedPredicateType q.field q.condition.name)
  | [], _ => by
    rw [List.nil_append, equalityValues, Predicate.equalityValues_of_not_isEquality hq]
  | p :: pre, h => by
    have hp := Predicate.equalityValues_of_isEquality (h p (List.mem_cons_self ..))
    have hpre := @equalityValues_of_first_other q post hq pre fun r hr =>
      h r (List.mem_cons_of_mem p hr)
    rw [List.cons_append, equalityValues, hp, hpre]
    rfl

theorem equalityValues_reads (ps : List Predicate) : ReadsEqualities ps (equalityValues ps) where
  all_equalities := equalityValues_of_all
  first_other := by
    rintro pre q post rfl hpre hq
    exact equalityValues_of_first_other hq hpre

/-- Both equality accessors of a context read the predicates they select as `ReadsEqualities`
says: the values of the `equals` and `equalsAny` predicates on the field, in order, or the
refusal of the first predicate on it of another kind. -/
theorem Context.equalityValuesOn_reads (c : Context) (name : String) :
    ReadsEqualities (c.predicatesOnVirtualField name) (c.equalityValuesOnVirtualField name) ∧
      ReadsEqualities (c.predicatesOnParentField name) (c.equalityValuesOnParentField name) :=
  ⟨equalityValues_reads _, equalityValues_reads _⟩

end FilterResolution.Virtual
