/-
# Tables and joins

The table that a query reads from, and the tables joined to it. Table names may be qualified; an
alias is a plain identifier. The condition of a join is SQL text and is only checked for not being
blank.
-/

import RuleQuery.Error

namespace RuleQuery

/-- The main table of a query. -/
structure TableRef where
  name : String
  aliasName : Option String
  deriving DecidableEq, Inhabited

/-- A joined table. -/
structure Join where
  kind : JoinKind
  table : String
  aliasName : Option String
  /-- The condition of the join, as SQL text. -/
  condition : String
  /-- Whether `AS` stands before the alias. -/
  useAs : Bool
  deriving DecidableEq, Inhabited

/-- An alias, if there is one, is an identifier. -/
def checkAlias : Option String → Except Defect Unit
  | some name => if Name.isIdentifier name then .ok () else .error (.invalidAlias name)
  | none => .ok ()

/-- A table name is a dotted name. -/
def checkTableName (name : String) : Except Defect Unit :=
  if Text.isBlankText name then .error .emptyTableName
  else if Name.isDotted name then .ok ()
  else .error (.invalidTableName name)

/-- A main table with usable names. -/
def TableRef.make (name : String) (aliasName : Option String) : Except Defect TableRef := do
  checkTableName name
  checkAlias aliasName
  return ⟨name, aliasName⟩

/-- A join with usable names and a condition; `AS` stands before the alias. -/
def Join.make (kind : JoinKind) (table : String) (aliasName : Option String) (condition : String) :
    Except Defect Join := do
  checkTableName table
  checkAlias aliasName
  if Text.isBlankText condition then .error .blankJoinCondition
  else return ⟨kind, table, aliasName, condition, true⟩

end RuleQuery
