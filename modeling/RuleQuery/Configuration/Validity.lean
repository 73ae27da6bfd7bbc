/-
# Valid configurations

The parts of a configuration are checked when they are made. What only the whole can show is
checked here, in this order: no list entry is blank, no aggregate stands in a field of WHERE, no
alias is used twice, and, as soon as any parameter is declared, every placeholder is. The first
fault found is the one reported.
-/

import RuleQuery.Configuration
import RuleQuery.EditDistance

namespace RuleQuery

/-- The first element of a list that repeats an earlier one or one of those already seen. -/
def firstRepeat? {α : Type} [DecidableEq α] (seen : List α) : List α → Option α
  | [] => none
  | a :: as => if a ∈ seen then some a else firstRepeat? (a :: seen) as

/-- The field of a condition, if it is a call that is an aggregate or holds one. -/
def Condition.aggregateField? (c : Condition) : Option Call :=
  match c.field with
  | .call call => if call.hasAggregate then some call else none
  | .column _ => none

namespace Configuration

/-- The fault in the clauses, if there is one. -/
def clauseFault? (c : Configuration) : Option Defect :=
  if c.select.fields.isEmpty then some .noSelectFields
  else if Text.isBlankText c.table.name then some .noMainTable
  else if c.groupBy.any Text.isBlankText then some .blankGrouping
  else if c.orderBy.any Text.isBlankText then some .blankOrdering
  else (c.conditions.conditions.findSome? Condition.aggregateField?).map fun call =>
    .aggregateInWhere call.function

/-- The fault in the names, if there is one. -/
def referenceFault? (c : Configuration) : Option ReferenceFault :=
  match firstRepeat? [] c.aliases with
  | some name => some (.repeatedAlias name)
  | none =>
    if c.parameters.isEmpty then none
    else (c.placeholders.find? fun name => !c.parameters.contains name).map fun name =>
      .undeclaredParameter name (Suggestion.find? name c.parameters.keys)

/-- Check a configuration as a whole. -/
def validate (c : Configuration) : Except RuleError Unit :=
  match c.clauseFault? with
  | some fault => .error (.structural fault)
  | none =>
    match c.referenceFault? with
    | some fault => .error (.referential fault)
    | none => .ok ()

end Configuration

end RuleQuery
