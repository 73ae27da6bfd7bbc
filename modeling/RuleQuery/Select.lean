/-
# The select list

Each field of the select list is SQL text or a call, and may have an alias. The list is never
empty.
-/

import RuleQuery.Call
import RuleQuery.Table

namespace RuleQuery

/-- What a field of the select list selects. -/
inductive Selected
  | raw (text : String)
  | call (value : Call)
  deriving DecidableEq, Inhabited

/-- A field of the select list. -/
structure SelectField where
  expression : Selected
  aliasName : Option String
  deriving DecidableEq, Inhabited

/-- The select list. -/
structure Select where
  fields : List SelectField
  deriving DecidableEq, Inhabited

/-- A field that is not blank, with a usable alias. -/
def SelectField.make (expression : Selected) (aliasName : Option String) :
    Except Defect SelectField :=
  match expression with
  | .raw text =>
    if Text.isBlankText text then .error .blankSelectField
    else (checkAlias aliasName).map fun _ => ⟨.raw text, aliasName⟩
  | .call c => (checkAlias aliasName).map fun _ => ⟨.call c, aliasName⟩

namespace Select

/-- A select list with at least one field. -/
def make (fields : List SelectField) : Except Defect Select :=
  if fields.isEmpty then .error .emptySelect else .ok ⟨fields⟩

/-- A list of columns without aliases. -/
def columns (names : List String) : Except Defect Select := do
  let fields ← names.mapM fun name => SelectField.make (.raw name) none
  make fields

end Select

end RuleQuery
