import FilterResolution.Filter.Node
import FilterResolution.Filter.Path

/-!
Specifications: a list of filters that all must hold, sub-specifications for associations by
name (kept in name order), and a fast-path flag that starts set. The predicates of the filters
are read by a walk over an explicit stack of nodes. A specification is written as its filters
joined by ` AND ` (`(no filters)` when there are none) followed by ` [name: sub]` for each
association.
-/

namespace FilterResolution.Filter

open FilterResolution.Json

/-- A walk over the predicates of filter trees, depth first. The nodes still to visit form a
stack whose top is the last element. -/
structure PredicateWalk where
  stack : Array Node

namespace PredicateWalk

theorem sizeAll_push_children {stack : Array Node} {op : Operator} {children : List Node}
    (h : stack.back? = some (.group op children)) :
    Node.sizeAll (stack.pop ++ children.reverse.toArray).toList < Node.sizeAll stack.toList := by
  obtain ⟨rest, rfl⟩ := Array.back?_eq_some_iff.1 h
  simp only [Array.pop_push, Array.toList_append, Array.toList_push,
    Node.sizeAll_append, Node.sizeAll_reverse, Node.sizeAll, Node.size]
  omega

/-- Pops nodes until one is a predicate, and yields it. A popped group pushes its children last
first, so that its first child is popped next. -/
def next (w : PredicateWalk) : Option (Predicate × PredicateWalk) :=
  match _h : w.stack.back? with
  | none => none
  | some (.pred p) => some (p, ⟨w.stack.pop⟩)
  | some (.group _ children) => next ⟨w.stack.pop ++ children.reverse.toArray⟩
termination_by Node.sizeAll w.stack.toList
decreasing_by exact sizeAll_push_children _h

theorem sizeAll_next_lt {w w' : PredicateWalk} {p : Predicate} (h : w.next = some (p, w')) :
    Node.sizeAll w'.stack.toList < Node.sizeAll w.stack.toList := by
  fun_induction next w with
  | case1 => cases h
  | case2 w p hback =>
    cases h
    obtain ⟨rest, hrest⟩ := Array.back?_eq_some_iff.1 hback
    simp only [hrest, Array.pop_push, Array.toList_push, Node.sizeAll_append, Node.sizeAll,
      Node.size]
    omega
  | case3 w op children hback ih => exact Nat.lt_trans (ih h) (sizeAll_push_children hback)

/-- Everything the walk yields, in order, until `next` gives nothing. -/
def toList (w : PredicateWalk) : List Predicate :=
  match _h : w.next with
  | none => []
  | some (p, w') => p :: toList w'
termination_by Node.sizeAll w.stack.toList
decreasing_by exact sizeAll_next_lt _h

end PredicateWalk

/-- A query specification. -/
structure Spec where
  filters : List Node := []
  associations : List (String × Spec) := []
  fastPath : Bool := true
  deriving Inhabited

namespace Spec

/-- The specification with nothing in it. -/
def empty : Spec := {}

/-- Adds a filter at the end. -/
def addFilter (s : Spec) (n : Node) : Spec := { s with filters := s.filters ++ [n] }

/-- Sets the sub-specification of an association. -/
def withAssociation (s : Spec) (name : String) (sub : Spec) : Spec :=
  { s with associations := KeyMap.insert name sub s.associations }

/-- Replaces the filters. -/
def replaceFilters (s : Spec) (filters : List Node) : Spec := { s with filters }

/-- Whether there are filters. -/
def hasFilters (s : Spec) : Bool := !s.filters.isEmpty

/-- Clears the fast-path flag. -/
def disableFastPath (s : Spec) : Spec := { s with fastPath := false }

/-- The sub-specification of an association. -/
def association? (s : Spec) (name : String) : Option Spec := KeyMap.get? name s.associations

/-- The sub-specification at a dotted path of association names. -/
def associationPath? (s : Spec) (path : String) : Option Spec :=
  (splitPath path).foldlM (fun s name => s.association? name) s

/-- Changes the sub-specification of an association, creating an empty one first if absent. -/
def updateAssociation (s : Spec) (name : String) (f : Spec → Spec) : Spec :=
  s.withAssociation name (f ((s.association? name).getD {}))

/-- Changes the sub-specification at a list of association names, creating empty ones on the
way. -/
def updateAt (s : Spec) : List String → (Spec → Spec) → Spec
  | [], f => f s
  | name :: rest, f => s.updateAssociation name fun sub => updateAt sub rest f

/-- The walk over the predicates of the filters, the first filter on top. -/
def predicateWalk (s : Spec) : PredicateWalk := ⟨s.filters.reverse.toArray⟩

/-- The predicates of the filters as their walk yields them. -/
def predicates (s : Spec) : List Predicate := s.predicateWalk.toList

mutual
/-- The text of a specification. -/
def render : Spec → String
  | ⟨filters, associations, _⟩ =>
    (if filters.isEmpty then "(no filters)" else Node.renderAll " AND " filters) ++
      renderAssociations associations

/-- ` [name: sub]` for each association. -/
def renderAssociations : List (String × Spec) → String
  | [] => ""
  | (name, sub) :: rest => " [" ++ name ++ ": " ++ render sub ++ "]" ++ renderAssociations rest
end

mutual
/-- The JSON form of a specification. -/
def toDoc : Spec → Doc
  | ⟨filters, associations, fastPath⟩ =>
    .object [("filters", .array (Node.toDocAll filters)),
      ("associations", .object (associationsToDoc associations)),
      ("fast_path", .bool fastPath)]

/-- The JSON forms of the associations. -/
def associationsToDoc : List (String × Spec) → List (String × Doc)
  | [] => []
  | (name, sub) :: rest => (name, toDoc sub) :: associationsToDoc rest
end

mutual
/-- Equality of specifications. -/
def same : Spec → Spec → Bool
  | ⟨f, a, p⟩, ⟨f', a', p'⟩ => Node.sameAll f f' && sameAssociations a a' && p == p'

/-- Entry-wise equality of associations. -/
def sameAssociations : List (String × Spec) → List (String × Spec) → Bool
  | [], [] => true
  | (k, s) :: as, (l, t) :: bs => k == l && same s t && sameAssociations as bs
  | _, _ => false
end

end Spec

end FilterResolution.Filter
