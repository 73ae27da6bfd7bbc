/-
# Compiling a configuration

A configuration is checked as a whole and then rendered clause by clause. The value of a parameter
is its binding, or else its declared default. Besides the statement, the parameters that have
neither are reported, each once and in the order in which they stand in the statement.
-/

import RuleQuery.Configuration.Validity
import RuleQuery.Settings
import RuleQuery.Sql.Clause

namespace RuleQuery

open Sql (Template Environment)

/-- A statement, and the parameters left open in it. -/
structure CompiledQuery where
  sql : String
  unresolved : List String
  deriving DecidableEq, Repr

/-- Whether every parameter has a value. -/
def CompiledQuery.isFullyBound (q : CompiledQuery) : Bool := q.unresolved.isEmpty

namespace Configuration

/-- The clauses of the statement, in order. -/
def clauses (c : Configuration) : List Template :=
  [c.select.template, .text "FROM " :: c.table.template]
    ++ c.joins.map Join.template
    ++ c.conditions.template?.toList
    ++ (if c.groupBy.isEmpty then []
        else [Template.ofText ("GROUP BY " ++ String.intercalate ", " c.groupBy)])
    ++ (if c.having.isEmpty then []
        else [.text "HAVING " :: Template.joined " AND " (c.having.map Condition.template)])
    ++ (if c.orderBy.isEmpty then []
        else [Template.ofText ("ORDER BY " ++ String.intercalate ", " c.orderBy)])

/-- The whole statement. -/
def template (c : Configuration) (separator : Separator) : Template :=
  Template.joined separator.text c.clauses

/-- The value of a parameter: its binding, or else its declared default. -/
def environment (c : Configuration) (bindings : Bindings) : Environment := fun name =>
  (bindings.find? name).or ((c.parameters.find? name).bind Parameter.default)

/-- The statement for a configuration that is valid. -/
def compile (settings : Settings) (c : Configuration) (bindings : Bindings) :
    Except RuleError CompiledQuery := do
  c.validate
  let env := c.environment bindings
  let template := c.template settings.separator
  return ⟨template.fill env, firstSeen (template.openNames env)⟩

/-- What a valid configuration is compiled to. -/
theorem compile_of_valid {c : Configuration} (valid : c.validate = .ok ()) (settings : Settings)
    (bindings : Bindings) :
    c.compile settings bindings =
      .ok ⟨(c.template settings.separator).fill (c.environment bindings),
        firstSeen ((c.template settings.separator).openNames (c.environment bindings))⟩ := by
  simp only [compile, valid, bind, Except.bind, pure, Except.pure]

/-- Only a valid configuration is compiled. -/
theorem validate_of_compile {c : Configuration} {settings : Settings} {bindings : Bindings}
    {q : CompiledQuery} (compiled : c.compile settings bindings = .ok q) : c.validate = .ok () := by
  rw [compile] at compiled
  cases checked : c.validate with
  | ok => rfl
  | error fault =>
      rw [checked] at compiled
      cases compiled

end Configuration

end RuleQuery
