/-
# Literals

The values that a rule may compare with or pass to a function. A string that has the form of a
placeholder stands for a parameter until the statement is filled in; it is an ordinary string in
every other respect. In SQL, strings, dates and timestamps are quoted, and a quote inside is
doubled.
-/

import RuleQuery.Calendar.Reader
import RuleQuery.Name
import RuleQuery.Number.Layout

namespace RuleQuery

open RuleQuery.Number RuleQuery.Calendar

/-- A value in a rule. -/
inductive Literal
  | null
  | bool (value : Bool)
  | int (value : Int64)
  | float (value : Binary64)
  | string (value : String)
  | date (value : Date)
  | timestamp (value : Timestamp)
  deriving DecidableEq

/-- The coarse kind of a literal. Integers and doubles are of one kind. -/
inductive LiteralKind
  | null | boolean | number | string | date | timestamp
  deriving DecidableEq, Repr

def LiteralKind.name : LiteralKind → String
  | .null => "null"
  | .boolean => "boolean"
  | .number => "number"
  | .string => "string"
  | .date => "date"
  | .timestamp => "timestamp"

namespace Literal

instance : Inhabited Literal := ⟨.null⟩

def kind : Literal → LiteralKind
  | .null => .null
  | .bool _ => .boolean
  | .int _ | .float _ => .number
  | .string _ => .string
  | .date _ => .date
  | .timestamp _ => .timestamp

/-- The parameter that a literal stands for, if it is a placeholder. -/
def placeholder? : Literal → Option String
  | .string s => Name.placeholder? s
  | _ => none

/-- Double every quote. -/
def doubleQuotes (cs : List Char) : List Char :=
  cs.flatMap fun c => if c = '\'' then ['\'', '\''] else [c]

/-- A text as an SQL string. -/
def quoted (cs : List Char) : String :=
  String.ofList ('\'' :: doubleQuotes cs ++ ['\''])

/-- The SQL text of a literal. -/
def sql : Literal → String
  | .null => "NULL"
  | .bool true => "TRUE"
  | .bool false => "FALSE"
  | .int n => integerText n.toInt
  | .float x => Layout.sql.text x
  | .string s => quoted s.toList
  | .date d => quoted d.text
  | .timestamp t => quoted (t.text ' ')

end Literal

end RuleQuery
