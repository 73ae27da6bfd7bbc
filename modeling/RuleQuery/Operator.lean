/-
# Operators and keywords

The comparison operators of a condition, the connectives of a group and the kinds of join, with
their SQL spelling and the way a spelling is read. An operator is read without regard to case and
with any blanks between its words; a connective or a join kind is read without regard to case and
without the blanks around it.
-/

import RuleQuery.Text.Blank
import RuleQuery.Text.Letters

namespace RuleQuery

/-- The comparison of a condition. -/
inductive Comparison
  | equal | notEqual | greater | greaterEqual | less | lessEqual
  | isIn | notIn | like | notLike | between | isNull | isNotNull
  deriving DecidableEq, Repr, Inhabited

/-- What stands in the value of a condition: nothing, one value, a list, or two bounds. -/
inductive Arity
  | none | scalar | list | pair
  deriving DecidableEq, Repr

namespace Comparison

/-- All comparisons. -/
def all : List Comparison :=
  [.equal, .notEqual, .greater, .greaterEqual, .less, .lessEqual, .isIn, .notIn, .like, .notLike,
    .between, .isNull, .isNotNull]

/-- The spelling in SQL and in documents. -/
def symbol : Comparison → String
  | .equal => "="
  | .notEqual => "!="
  | .greater => ">"
  | .greaterEqual => ">="
  | .less => "<"
  | .lessEqual => "<="
  | .isIn => "IN"
  | .notIn => "NOT IN"
  | .like => "LIKE"
  | .notLike => "NOT LIKE"
  | .between => "BETWEEN"
  | .isNull => "IS NULL"
  | .isNotNull => "IS NOT NULL"

/-- Read a comparison; `<>` is a second spelling of inequality. -/
def ofSymbol? (s : String) : Option Comparison :=
  let spelling := Text.upper (Text.squeeze s)
  if spelling = "<>" then some .notEqual
  else all.find? fun op => op.symbol == spelling

def arity : Comparison → Arity
  | .isNull | .isNotNull => .none
  | .isIn | .notIn => .list
  | .between => .pair
  | _ => .scalar

/-- Every comparison is read back from its spelling. -/
theorem ofSymbol?_symbol (op : Comparison) : ofSymbol? op.symbol = some op := by
  cases op <;> decide

end Comparison

/-- How the members of a group are joined. -/
inductive Connective
  | and | or
  deriving DecidableEq, Repr, Inhabited

namespace Connective

def symbol : Connective → String
  | .and => "AND"
  | .or => "OR"

def ofName? (s : String) : Option Connective :=
  match Text.upper (Text.trim s) with
  | "AND" => some .and
  | "OR" => some .or
  | _ => none

theorem ofName?_symbol (c : Connective) : ofName? c.symbol = some c := by
  cases c <;> decide

end Connective

/-- The kind of a join. -/
inductive JoinKind
  | inner | left | right | full
  deriving DecidableEq, Repr, Inhabited

namespace JoinKind

def symbol : JoinKind → String
  | .inner => "INNER"
  | .left => "LEFT"
  | .right => "RIGHT"
  | .full => "FULL"

def ofName? (s : String) : Option JoinKind :=
  match Text.upper (Text.trim s) with
  | "INNER" => some .inner
  | "LEFT" => some .left
  | "RIGHT" => some .right
  | "FULL" => some .full
  | _ => none

theorem ofName?_symbol (k : JoinKind) : ofName? k.symbol = some k := by
  cases k <;> decide

end JoinKind

end RuleQuery
