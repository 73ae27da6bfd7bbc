/-
# Profiles

A rule is made for the subscribers of one profile.
-/

import RuleQuery.Text.Blank
import RuleQuery.Text.Letters

namespace RuleQuery

/-- The subscribers that a rule is made for. -/
inductive Profile
  | prepaid | hybrid
  deriving DecidableEq, Repr, Inhabited

namespace Profile

def name : Profile → String
  | .prepaid => "PREPAID"
  | .hybrid => "HYBRID"

/-- The profile with exactly this name. -/
def ofExactName? (s : String) : Option Profile :=
  [prepaid, hybrid].find? fun p => p.name == s

/-- Read a profile, without regard to case or to blanks around it. -/
def ofName? (s : String) : Option Profile :=
  ofExactName? (Text.upper (Text.trim s))

theorem ofExactName?_name (p : Profile) : ofExactName? p.name = some p := by
  cases p <;> decide

end Profile

end RuleQuery
