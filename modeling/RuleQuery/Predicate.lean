/-
# Predicates

A predicate is a condition, or a group of predicates joined by one connective. A group with a
single member means the same as that member, and is transparent also in the question whether it
needs parentheses inside another group. The WHERE clause is a list of predicates that all have to
hold; an empty list asks nothing.
-/

import RuleQuery.Condition

namespace RuleQuery

/-- A condition or a group of predicates. -/
inductive Predicate
  | condition (value : Condition)
  | group (connective : Connective) (members : List Predicate)

/-- Predicates joined by a connective. -/
structure Group where
  connective : Connective
  members : List Predicate

/-- The predicates of the WHERE clause, all of which have to hold. -/
structure WhereClause where
  members : List Predicate

namespace Predicate

mutual

/-- Equality of predicates is decided along the tree. -/
def decEq : (a b : Predicate) → Decidable (a = b)
  | .condition a, .condition b => if h : a = b then .isTrue (by rw [h]) else .isFalse (by simp [h])
  | .group c as, .group d bs =>
    if h : c = d then
      match decEqList as bs with
      | .isTrue h' => .isTrue (by rw [h, h'])
      | .isFalse h' => .isFalse (by simp [h'])
    else .isFalse (by simp [h])
  | .condition _, .group .. | .group .., .condition _ => .isFalse (by simp)

def decEqList : (as bs : List Predicate) → Decidable (as = bs)
  | [], [] => .isTrue rfl
  | [], _ :: _ | _ :: _, [] => .isFalse (by simp)
  | a :: as, b :: bs =>
    match decEq a b, decEqList as bs with
    | .isTrue h, .isTrue h' => .isTrue (by rw [h, h'])
    | .isFalse h, _ => .isFalse (by simp [h])
    | _, .isFalse h => .isFalse (by simp [h])

end

instance : DecidableEq Predicate := decEq

/-- Whether a predicate has to stand in parentheses inside a group. -/
def needsParentheses : Predicate → Bool
  | .condition _ => false
  | .group _ [only] => only.needsParentheses
  | .group _ _ => true

mutual

/-- The conditions of a predicate, from left to right. -/
def conditions : Predicate → List Condition
  | .condition c => [c]
  | .group _ members => conditionsOf members

def conditionsOf : List Predicate → List Condition
  | [] => []
  | p :: ps => p.conditions ++ conditionsOf ps

end

theorem mem_conditionsOf {c : Condition} {ps : List Predicate} :
    c ∈ conditionsOf ps ↔ ∃ p ∈ ps, c ∈ p.conditions := by
  induction ps with
  | nil => simp [conditionsOf]
  | cons p ps ih => simp [conditionsOf, ih]

/-- The parameters named in a predicate, with repeats, from left to right. -/
def placeholders (p : Predicate) : List String :=
  p.conditions.flatMap Condition.placeholders

end Predicate

namespace Group

deriving instance DecidableEq for Group

/--
A group with at least one member. The connective may be left open only where it does not matter,
with a single member.
-/
def make (members : List Predicate) (connective : Option Connective) : Except Defect Group :=
  match members, connective with
  | [], _ => .error .emptyGroup
  | members, some c => .ok ⟨c, members⟩
  | [only], none => .ok ⟨.and, [only]⟩
  | _, none => .error .missingConnective

/-- The group of predicates that all have to hold. -/
def allOf (members : List Predicate) : Except Defect Group := make members (some .and)

/-- The group of predicates of which one has to hold. -/
def anyOf (members : List Predicate) : Except Defect Group := make members (some .or)

def toPredicate (g : Group) : Predicate := .group g.connective g.members

end Group

namespace WhereClause

deriving instance DecidableEq for WhereClause

/-- The clause that asks nothing. -/
def empty : WhereClause := ⟨[]⟩

def isEmpty (w : WhereClause) : Bool := w.members.isEmpty

/-- The conditions of the clause, from left to right. -/
def conditions (w : WhereClause) : List Condition :=
  Predicate.conditionsOf w.members

end WhereClause

end RuleQuery
