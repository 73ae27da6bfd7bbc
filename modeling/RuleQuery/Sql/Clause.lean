/-
# The clauses of a query as templates

Function names are written in upper case, and `COUNT_DISTINCT` as a `COUNT` over `DISTINCT`. Which
parentheses a predicate gets follows from the tree: a member of a group or of the WHERE list is
parenthesized when it renders more than one member itself. A lone member of the WHERE list has no
neighbour and is never parenthesized.
-/

import RuleQuery.Predicate
import RuleQuery.Select
import RuleQuery.Sql.Template

namespace RuleQuery

open Sql (Template)

/-- A function applied to arguments that are rendered already. -/
def Call.templateOf (function : String) (args : List Template) : Template :=
  let name := Text.upperAscii function
  let opening := if name = "COUNT_DISTINCT" then "COUNT(DISTINCT " else name ++ "("
  .text opening :: Template.joined ", " args ++ [.text ")"]

namespace Argument

mutual

def template : Argument → Template
  | .literal l => [.slot l]
  | .column name => Template.ofText name
  | .call f args => Call.templateOf f (templates args)

def templates : List Argument → List Template
  | [] => []
  | a :: as => a.template :: templates as

end

end Argument

def Call.template (c : Call) : Template := c.toArgument.template

def Field.template : Field → Template
  | .column name => Template.ofText name
  | .call c => c.template

def Operand.template : Operand → Template
  | .absent => Template.ofText "NULL"
  | .scalar l => [.slot l]
  | .list items => Template.parenthesized (Template.joined ", " (items.map fun l => [.slot l]))
  | .call c => c.template

/-- A condition: the field, the comparison and the value, if the comparison takes one. -/
def Condition.template (c : Condition) : Template :=
  match c.op.arity, c.value with
  | .none, _ => c.field.template ++ [.text (" " ++ c.op.symbol)]
  | .pair, .list [low, high] =>
    c.field.template ++ [.text " BETWEEN ", .slot low, .text " AND ", .slot high]
  | _, value => c.field.template ++ .text (" " ++ c.op.symbol ++ " ") :: value.template

namespace Predicate

mutual

/-- A predicate that stands alone. A group with a single member is rendered as that member. -/
def template : Predicate → Template
  | .condition c => c.template
  | .group _ [only] => only.template
  | .group connective members =>
    Template.joined (" " ++ connective.symbol ++ " ") (memberTemplates members)

/-- Predicates that stand beside each other. -/
def memberTemplates : List Predicate → List Template
  | [] => []
  | p :: ps =>
    (if p.needsParentheses then Template.parenthesized p.template else p.template) ::
      memberTemplates ps

end

end Predicate

def Group.template (g : Group) : Template := g.toPredicate.template

/-- The WHERE clause with its keyword; nothing if it asks nothing. -/
def WhereClause.template? (w : WhereClause) : Option Template :=
  match w.members with
  | [] => none
  | [only] => some (.text "WHERE " :: only.template)
  | members =>
    some (.text "WHERE " :: Template.joined " AND " (Predicate.memberTemplates members))

def TableRef.template (t : TableRef) : Template :=
  Template.ofText <| match t.aliasName with
    | some name => t.name ++ " " ++ name
    | none => t.name

def Join.template (j : Join) : Template :=
  let table := match j.aliasName with
    | some name => j.table ++ (if j.useAs then " AS " else " ") ++ name
    | none => j.table
  Template.ofText (j.kind.symbol ++ " JOIN " ++ table ++ " ON " ++ j.condition)

def Selected.template : Selected → Template
  | .raw text => Template.ofText text
  | .call c => c.template

def SelectField.template (f : SelectField) : Template :=
  match f.aliasName with
  | some name => f.expression.template ++ [.text (" AS " ++ name)]
  | none => f.expression.template

def Select.template (s : Select) : Template :=
  .text "SELECT " :: Template.joined ", " (s.fields.map SelectField.template)

end RuleQuery
