import FilterResolution.Filter.Spec

/-! # The depth-first walk over predicates

The predicates of a specification are read by popping nodes off a stack: a predicate is yielded,
a group is replaced by its children, pushed last first. What the walk still has to yield is
always the pre-order of the stacked nodes read from the top down (`pending`); each call of `next`
yields the head of it and leaves the rest. So the walk yields the predicates of the filters in
pre-order, each once, and then stops.
-/

namespace FilterResolution.Filter

theorem Node.predicatesAll_append (l l' : List Node) :
    Node.predicatesAll (l ++ l') = Node.predicatesAll l ++ Node.predicatesAll l' := by
  induction l with
  | nil => simp [Node.predicatesAll]
  | cons n rest ih => simp [Node.predicatesAll, ih]

namespace PredicateWalk

/-- The predicates a walk has still to yield: those of the stacked nodes, from the top down. -/
def pending (w : PredicateWalk) : List Predicate := Node.predicatesAll w.stack.toList.reverse

/-- Popping the top node: what is pending is its predicates, then what lies below it. -/
theorem pending_of_back? {w : PredicateWalk} {n : Node} (h : w.stack.back? = some n) :
    w.pending = n.predicates ++ pending ⟨w.stack.pop⟩ := by
  obtain ⟨rest, hrest⟩ := Array.back?_eq_some_iff.1 h
  simp [pending, hrest, Node.predicatesAll]

/-- Children pushed last first are pending first first, ahead of what lies below them. -/
theorem pending_push_children (stack : Array Node) (children : List Node) :
    pending ⟨stack ++ children.reverse.toArray⟩ =
      Node.predicatesAll children ++ pending ⟨stack⟩ := by
  simp [pending, Node.predicatesAll_append]

theorem pending_next_some {w w' : PredicateWalk} {p : Predicate} (h : w.next = some (p, w')) :
    w.pending = p :: w'.pending := by
  fun_induction next w with
  | case1 => cases h
  | case2 w p hback =>
    cases h
    rw [pending_of_back? hback]
    rfl
  | case3 w op children hback ih =>
    rw [pending_of_back? hback, ← ih h, pending_push_children]
    rfl

theorem pending_next_none {w : PredicateWalk} (h : w.next = none) : w.pending = [] := by
  fun_induction next w with
  | case1 w hback =>
    rw [Array.back?_eq_none_iff] at hback
    simp [pending, hback, Node.predicatesAll]
  | case2 => cases h
  | case3 w op children hback ih =>
    have hrest := ih h
    rw [pending_push_children] at hrest
    rw [pending_of_back? hback]
    exact hrest

theorem toList_of_next_none {w : PredicateWalk} (h : w.next = none) : w.toList = [] := by
  rw [toList]
  split
  · rfl
  · simp_all

theorem toList_of_next_some {w w' : PredicateWalk} {p : Predicate} (h : w.next = some (p, w')) :
    w.toList = p :: w'.toList := by
  rw [toList]
  split
  · simp_all
  · simp_all

theorem toList_eq_pending (w : PredicateWalk) : w.toList = w.pending := by
  fun_induction toList w with
  | case1 w h => exact (pending_next_none h).symm
  | case2 w p w' h ih => rw [pending_next_some h, ih]

/-- Calling `next` again and again on a walk yields `ps`, one by one, and then nothing. -/
inductive Yields : PredicateWalk → List Predicate → Prop
  | done {w : PredicateWalk} : w.next = none → Yields w []
  | step {w w' : PredicateWalk} {p : Predicate} {ps : List Predicate} :
      w.next = some (p, w') → Yields w' ps → Yields w (p :: ps)

theorem yields_toList (w : PredicateWalk) : Yields w w.toList := by
  fun_induction toList w with
  | case1 w h => exact .done h
  | case2 w p w' h ih => exact .step h ih

theorem Yields.eq_toList {w : PredicateWalk} {ps : List Predicate} (h : Yields w ps) :
    ps = w.toList := by
  induction h with
  | done h => rw [toList_of_next_none h]
  | step h _ ih => rw [toList_of_next_some h, ih]

theorem yields_iff (w : PredicateWalk) (ps : List Predicate) : Yields w ps ↔ ps = w.toList :=
  ⟨Yields.eq_toList, fun h => h ▸ yields_toList w⟩

end PredicateWalk

theorem Spec.pending_predicateWalk (s : Spec) :
    s.predicateWalk.pending = Node.predicatesAll s.filters := by
  simp [PredicateWalk.pending, Spec.predicateWalk]

/-- The walk over a specification's predicates yields the predicates of its filters in
pre-order, each once, and then stops; collected, it gives exactly that list. -/
theorem Spec.predicates_preorder (s : Spec) :
    (∀ ps, s.predicateWalk.Yields ps ↔ ps = Node.predicatesAll s.filters) ∧
      s.predicates = Node.predicatesAll s.filters := by
  have hcollect : s.predicates = Node.predicatesAll s.filters := by
    rw [Spec.predicates, PredicateWalk.toList_eq_pending, Spec.pending_predicateWalk]
  refine ⟨fun ps => ?_, hcollect⟩
  rw [PredicateWalk.yields_iff, ← Spec.predicates, hcollect]

end FilterResolution.Filter
