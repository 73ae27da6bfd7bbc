/-
# Balances

A rule is computed against one balance of a subscriber.
-/

import RuleQuery.Text.Blank
import RuleQuery.Text.Letters

namespace RuleQuery

/-- The balance that a rule is computed against. -/
inductive Balance
  | main | cred
  deriving DecidableEq, Repr, Inhabited

namespace Balance

def name : Balance → String
  | .main => "MAIN_BALANCE"
  | .cred => "CRED"

/-- The balance with exactly this name. -/
def ofExactName? (s : String) : Option Balance :=
  [main, cred].find? fun b => b.name == s

/-- Read a balance, without regard to case or to blanks around it. -/
def ofName? (s : String) : Option Balance :=
  ofExactName? (Text.upper (Text.trim s))

theorem ofExactName?_name (b : Balance) : ofExactName? b.name = some b := by
  cases b <;> decide

end Balance

end RuleQuery
