/-
# Conditions

A condition compares a field, which is a column or a call, with a value. What the value has to be
depends on the comparison: nothing for the tests of nullity, a non-empty list for membership, two
bounds of one kind for a range, and anything but a list otherwise. `Condition.make` enforces this,
and reads a single NULL as no value at all.
-/

import RuleQuery.Call

namespace RuleQuery

/-- The left-hand side of a condition. -/
inductive Field
  | column (name : String)
  | call (value : Call)
  deriving DecidableEq, Inhabited

/-- The right-hand side of a condition. -/
inductive Operand
  | absent
  | scalar (value : Literal)
  | list (items : List Literal)
  | call (value : Call)
  deriving DecidableEq, Inhabited

/-- A comparison of a field with a value. -/
structure Condition where
  field : Field
  op : Comparison
  value : Operand
  deriving DecidableEq, Inhabited

namespace Field

/-- A column of a condition is a dotted name. -/
def check : Field → Except Defect Unit
  | .column name => if Name.isDotted name then .ok () else .error (.invalidField name)
  | .call _ => .ok ()

def placeholders : Field → List String
  | .column _ => []
  | .call c => c.placeholders

end Field

namespace Operand

/-- A literal as a value, where NULL is no value. -/
def ofLiteral : Literal → Operand
  | .null => .absent
  | l => .scalar l

/-- A single NULL is no value. -/
def normal : Operand → Operand
  | .scalar .null => .absent
  | v => v

/-- The literals of a value, in order. -/
def literals : Operand → List Literal
  | .scalar l => [l]
  | .list items => items
  | .absent | .call _ => []

def placeholders : Operand → List String
  | .call c => c.placeholders
  | v => v.literals.filterMap Literal.placeholder?

/-- The bounds of a range are two literals of one kind, not NULL. -/
def checkBounds : Operand → Except Defect Unit
  | .list [low, high] =>
    if low.kind ≠ high.kind then .error (.unlikeBounds low.kind high.kind)
    else if low = .null then .error .nullBounds
    else .ok ()
  | _ => .error .notTwoBounds

/-- Whether a value suits a comparison. -/
def check (op : Comparison) (v : Operand) : Except Defect Unit :=
  match op.arity, v with
  | .none, .absent => .ok ()
  | .none, _ => .error (.unexpectedValue op)
  | .list, .list (_ :: _) => .ok ()
  | .list, _ => .error (.missingList op)
  | .pair, v => v.checkBounds
  | .scalar, .list _ => .error (.unexpectedList op)
  | .scalar, _ => .ok ()

end Operand

namespace Condition

/-- A condition whose field is usable and whose value suits the comparison. -/
def make (field : Field) (op : Comparison) (value : Operand) : Except Defect Condition := do
  field.check
  Operand.check op value.normal
  return ⟨field, op, value.normal⟩

/-- The parameters named in a condition, with repeats: those of the field, then of the value. -/
def placeholders (c : Condition) : List String :=
  c.field.placeholders ++ c.value.placeholders

end Condition

end RuleQuery
