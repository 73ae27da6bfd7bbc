/-
# Compiler settings

Two things can be set: what stands between the clauses of a statement, and from which length on a
statement is reported as very long.
-/

namespace RuleQuery

/-- What stands between two clauses. -/
inductive Separator
  | space | newline
  deriving DecidableEq, Repr, Inhabited

namespace Separator

def text : Separator → String
  | .space => " "
  | .newline => "\n"

/-- The name of a separator in settings. -/
def name : Separator → String
  | .space => "space"
  | .newline => "newline"

def ofName? : String → Option Separator
  | "space" => some .space
  | "newline" => some .newline
  | _ => none

theorem ofName?_name (s : Separator) : ofName? s.name = some s := by
  cases s <;> decide

end Separator

/-- The settings of the compiler. -/
structure Settings where
  separator : Separator
  /-- A statement with more characters than this is very long. -/
  maxLength : Nat
  deriving DecidableEq, Repr

/-- A space between clauses, and a thousand characters. -/
def Settings.default : Settings := ⟨.space, 1000⟩

instance : Inhabited Settings := ⟨.default⟩

end RuleQuery
