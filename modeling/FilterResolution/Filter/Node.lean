import FilterResolution.Filter.Predicate

/-!
Filter trees: a node is a predicate or a group of nodes under an operator. `and` and `or` join
their children; `notAnd` negates their conjunction. A group is written `(a AND b)`, `(a OR b)`
or `NOT (a AND b)`; an empty group is `()`.

Operator names are read leniently: case is ignored and blanks and dashes count as
underscores, so `Not And` and `not-and` name `notAnd`, and so does `not`.
-/

namespace FilterResolution.Filter

open FilterResolution.Json

/-- How a group combines its children. -/
inductive Operator where
  | and
  | or
  | notAnd
  deriving DecidableEq, Repr, Inhabited

namespace Operator

/-- The JSON names of the operators, in declaration order. -/
def names : List String := ["and", "or", "not_and"]

/-- The JSON name of an operator. -/
def name : Operator → String
  | .and => "and"
  | .or => "or"
  | .notAnd => "not_and"

/-- The operator with a JSON name. -/
def ofName? : String → Option Operator
  | "and" => some .and
  | "or" => some .or
  | "not_and" => some .notAnd
  | _ => none

/-- The text of an operator. -/
def render : Operator → String
  | .and => "AND"
  | .or => "OR"
  | .notAnd => "NOT AND"

/-- Lowercases ASCII letters and turns blanks and dashes into underscores. -/
def normalizeChar (c : Char) : Char :=
  if c == ' ' || c == '-' then '_' else c.toLower

/-- The operator named by free text: after lowercasing, with blanks and dashes read as
underscores, one of `and`, `or`, `not_and` or `not`. Text outside ASCII never names one: no
character beyond ASCII lowercases into the letters of these names (only U+0130 and U+212A
lowercase into ASCII at all, to `i` with a mark and to `k`). -/
def ofText? (text : String) : Option Operator :=
  if text.toList.any (fun c => 127 < c.toNat) then none
  else
    match String.ofList (text.toList.map normalizeChar) with
    | "and" => some .and
    | "or" => some .or
    | "not_and" => some .notAnd
    | "not" => some .notAnd
    | _ => none

example : ofText? "Not And" = some .notAnd := by decide
example : ofText? "not-and" = some .notAnd := by decide
example : ofText? "ＡＮＤ" = none := by decide

end Operator

/-- A node of a filter tree. -/
inductive Node where
  | pred (p : Predicate)
  | group (op : Operator) (children : List Node)
  deriving Inhabited

namespace Node

/-- The predicate of a predicate node. -/
def asPredicate? : Node → Option Predicate
  | .pred p => some p
  | .group .. => none

/-- The predicates among a list of nodes, leaving groups out. -/
def directPredicates (nodes : List Node) : List Predicate := nodes.filterMap asPredicate?

mutual
/-- The text of a node. -/
def render : Node → String
  | .pred p => p.render
  | .group op children =>
    let joiner := if op == .or then " OR " else " AND "
    (if op == .notAnd then "NOT " else "") ++ "(" ++ renderAll joiner children ++ ")"

/-- The texts of nodes joined by `joiner`. -/
def renderAll (joiner : String) : List Node → String
  | [] => ""
  | [n] => render n
  | n :: rest => render n ++ joiner ++ renderAll joiner rest
end

mutual
/-- The JSON form of a node. -/
def toDoc : Node → Doc
  | .pred p => p.toDoc
  | .group op children =>
    .object [("operator", .string op.name), ("children", .array (toDocAll children))]

/-- The JSON forms of nodes. -/
def toDocAll : List Node → List Doc
  | [] => []
  | n :: rest => toDoc n :: toDocAll rest
end

mutual
/-- The predicates of a node, depth first, left to right. -/
def predicates : Node → List Predicate
  | .pred p => [p]
  | .group _ children => predicatesAll children

/-- The predicates of nodes, depth first, left to right. -/
def predicatesAll : List Node → List Predicate
  | [] => []
  | n :: rest => predicates n ++ predicatesAll rest
end

mutual
/-- The number of nodes in a tree, groups included. -/
def size : Node → Nat
  | .pred _ => 1
  | .group _ children => sizeAll children + 1

/-- The number of nodes in the trees of a list. -/
def sizeAll : List Node → Nat
  | [] => 0
  | n :: rest => size n + sizeAll rest
end

theorem sizeAll_append (l l' : List Node) : sizeAll (l ++ l') = sizeAll l + sizeAll l' := by
  induction l with
  | nil => simp only [List.nil_append, sizeAll, Nat.zero_add]
  | cons n rest ih => simp only [List.cons_append, sizeAll, ih, Nat.add_assoc]

theorem sizeAll_reverse (l : List Node) : sizeAll l.reverse = sizeAll l := by
  induction l with
  | nil => rfl
  | cons n rest ih =>
    simp only [List.reverse_cons, sizeAll_append, ih, sizeAll]
    omega

mutual
/-- Equality of nodes. -/
def same : Node → Node → Bool
  | .pred p, .pred q => p.same q
  | .group o cs, .group o' cs' => o == o' && sameAll cs cs'
  | _, _ => false

/-- Element-wise equality of node lists. -/
def sameAll : List Node → List Node → Bool
  | [], [] => true
  | a :: as, b :: bs => same a b && sameAll as bs
  | _, _ => false
end

end Node

end FilterResolution.Filter
