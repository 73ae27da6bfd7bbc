/-
# The lifecycle of a rule

A rule starts as a draft, is validated, goes into production and is archived in the end. From
validation it may go back to being a draft; no other way leads back.
-/

import RuleQuery.Text.Blank
import RuleQuery.Text.Letters

namespace RuleQuery

/-- The state of a rule in its lifecycle. -/
inductive Status
  | draft | toValidate | inProduction | archived
  deriving DecidableEq, Repr, Inhabited

namespace Status

/-- All states. -/
def all : List Status := [.draft, .toValidate, .inProduction, .archived]

def name : Status → String
  | .draft => "DRAFT"
  | .toValidate => "TO_VALIDATE"
  | .inProduction => "IN_PRODUCTION"
  | .archived => "ARCHIVED"

/-- Read a state, without regard to ASCII case or to blanks around it. -/
def ofName? (s : String) : Option Status :=
  all.find? fun status => Text.sameLetters status.name (Text.trim s)

/-- The states that may follow a state. -/
def successors : Status → List Status
  | .draft => [.toValidate]
  | .toValidate => [.inProduction, .draft]
  | .inProduction => [.archived]
  | .archived => []

/-- Whether a rule may be moved to a state; staying where it is is always allowed. -/
def canMoveTo (source target : Status) : Bool :=
  source == target || source.successors.contains target

/-- No state follows. -/
def isTerminal (s : Status) : Bool := s.successors.isEmpty

theorem ofName?_name (s : Status) : ofName? s.name = some s := by
  cases s <;> decide

end Status

end RuleQuery
