/-
# Parameters

A parameter is declared with a kind, may have a default, and may list the texts allowed for it. A
text given for a parameter is read by its kind: numbers, dates and timestamps have to be complete,
truth values may be in any case, and a string is taken as it is.
-/

import RuleQuery.Error
import RuleQuery.NameMap
import RuleQuery.Number.Reader

namespace RuleQuery

/-- The declaration of a parameter. -/
structure Parameter where
  kind : ParameterKind
  required : Bool
  default : Option Literal
  description : Option String
  /-- The texts that may be given for the parameter, if they are limited. -/
  values : Option (List String)
  deriving DecidableEq

/-- The declarations of a configuration, by name. -/
abbrev Declarations := NameMap Parameter

/-- The literals bound to parameters, by name. -/
abbrev Bindings := NameMap Literal

namespace ParameterKind

/-- Read a text as a value of the kind. -/
def readValue? (kind : ParameterKind) (raw : String) : Option Literal :=
  match kind with
  | .string | .enumeration => some (.string raw)
  | .integer => (Number.readInt64? raw).map .int
  | .float => (Number.readBinary64? raw).map .float
  | .boolean =>
    if Text.sameLetters raw "true" then some (.bool true)
    else if Text.sameLetters raw "false" then some (.bool false)
    else none
  | .date => (Calendar.readDate? raw).map .date
  | .datetime => (Calendar.readTimestamp? raw).map .timestamp

/-- Read a text given for a parameter. -/
def parse (kind : ParameterKind) (parameter raw : String) : Except Defect Literal :=
  match kind.readValue? raw with
  | some l => .ok l
  | none => .error (.wrongValue parameter kind raw)

end ParameterKind

namespace Parameter

/-- A parameter that has to be bound. -/
def ofRequired (kind : ParameterKind) : Parameter := ⟨kind, true, none, none, none⟩

/-- A parameter that may be left unbound. -/
def ofOptional (kind : ParameterKind) (default : Option Literal) : Parameter :=
  ⟨kind, false, default, none, none⟩

/-- The value for a text given for the parameter, which has to be among the allowed ones. -/
def bind (p : Parameter) (name raw : String) : Except Defect Literal :=
  match p.values with
  | some values =>
    if values.contains raw then p.kind.parse name raw else .error (.unlistedValue name values)
  | none => p.kind.parse name raw

end Parameter

end RuleQuery
