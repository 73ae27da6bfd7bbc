/-
# Configurations

A configuration is a query in parts: a select list, a main table, joins, a WHERE clause, grouping,
HAVING conditions, an order, and the parameters it declares. It starts with a select list and a
table and is extended step by step. Placeholders may stand in every literal; those of the WHERE and
HAVING conditions are collected here, each once and in the order in which they are first met.
-/

import RuleQuery.Parameter
import RuleQuery.Predicate
import RuleQuery.Select

namespace RuleQuery

/-- A query in parts. -/
structure Configuration where
  select : Select
  table : TableRef
  joins : List Join
  conditions : WhereClause
  groupBy : List String
  having : List Condition
  orderBy : List String
  parameters : Declarations
  deriving DecidableEq

/-- The elements of a list without repeats, each where it is first met. -/
def firstSeen {α : Type} [DecidableEq α] : List α → List α
  | [] => []
  | a :: as => a :: (firstSeen as).filter (· ≠ a)

namespace Configuration

/-- A select list and a table, and nothing else. -/
def start (select : Select) (table : TableRef) : Configuration :=
  ⟨select, table, [], .empty, [], [], [], .empty⟩

def withJoins (c : Configuration) (joins : List Join) : Configuration :=
  { c with joins := c.joins ++ joins }

def withJoin (c : Configuration) (join : Join) : Configuration :=
  c.withJoins [join]

/-- Replace the WHERE clause. -/
def withConditions (c : Configuration) (conditions : WhereClause) : Configuration :=
  { c with conditions }

/-- Add a predicate to the WHERE clause. -/
def withWhere (c : Configuration) (p : Predicate) : Configuration :=
  c.withConditions ⟨c.conditions.members ++ [p]⟩

def withGroupBy (c : Configuration) (entries : List String) : Configuration :=
  { c with groupBy := c.groupBy ++ entries }

def withHaving (c : Configuration) (condition : Condition) : Configuration :=
  { c with having := c.having ++ [condition] }

def withOrderBy (c : Configuration) (entries : List String) : Configuration :=
  { c with orderBy := c.orderBy ++ entries }

/-- Declare a parameter, in place of an earlier declaration of that name. -/
def withParameter (c : Configuration) (name : String) (p : Parameter) : Configuration :=
  { c with parameters := c.parameters.insert name p }

/-- The tables of the query, each once: the main table, then the joined ones. -/
def tables (c : Configuration) : List String :=
  firstSeen (c.table.name :: c.joins.map Join.table)

/-- The aliases in use, with repeats: that of the main table, then those of the joins. -/
def aliases (c : Configuration) : List String :=
  (c.table.aliasName :: c.joins.map Join.aliasName).filterMap id

/-- The parameters named in WHERE and then in HAVING, each once. -/
def placeholders (c : Configuration) : List String :=
  firstSeen ((c.conditions.conditions ++ c.having).flatMap Condition.placeholders)

/-- The declared parameters that have to be bound, in the order of their names. -/
def requiredParameters (c : Configuration) : List String :=
  (c.parameters.entries.filter fun e => e.2.required).map Prod.fst

/-- The required parameters with neither a binding nor a default. -/
def missingParameters (c : Configuration) (bindings : Bindings) : List String :=
  (c.parameters.entries.filter fun e =>
    e.2.required && e.2.default.isNone && !bindings.contains e.1).map Prod.fst

end Configuration

end RuleQuery
