/-
# Parameter kinds

The declared kind of a parameter decides how a text given for it is read.
-/

namespace RuleQuery

/-- The declared kind of a parameter. -/
inductive ParameterKind
  | string | integer | float | date | datetime | boolean | enumeration
  deriving DecidableEq, Repr, Inhabited

namespace ParameterKind

/-- All kinds. -/
def all : List ParameterKind :=
  [.string, .integer, .float, .date, .datetime, .boolean, .enumeration]

def name : ParameterKind → String
  | .string => "string"
  | .integer => "integer"
  | .float => "float"
  | .date => "date"
  | .datetime => "datetime"
  | .boolean => "boolean"
  | .enumeration => "enum"

/-- Read a kind; the name has to be exact. -/
def ofName? (s : String) : Option ParameterKind :=
  all.find? fun kind => kind.name == s

/-- Whether every text is a value of the kind. -/
def isTextual : ParameterKind → Bool
  | .string | .enumeration => true
  | _ => false

theorem ofName?_name (k : ParameterKind) : ofName? k.name = some k := by
  cases k <;> decide

end ParameterKind

end RuleQuery
