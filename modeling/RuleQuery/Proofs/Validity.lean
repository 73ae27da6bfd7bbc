/-
# Checking replaced literals

The check of a whole configuration asks a literal only which parameter it stands for, and the
declarations only for their names. So a configuration whose literals are replaced by others of the
same parameters, and whose declarations keep their names, is found valid exactly if the first one
is, and has the same fault otherwise.
-/

import RuleQuery.Configuration.Validity
import RuleQuery.Proofs.Literals
import RuleQuery.Proofs.NameMap

namespace RuleQuery

variable {f : Literal → Literal}

namespace Argument

mutual

theorem hasAggregate_mapLiterals : (a : Argument) →
    (a.mapLiterals f).hasAggregate = a.hasAggregate
  | .literal _ => rfl
  | .column _ => rfl
  | .call function args => by
      rw [mapLiterals, hasAggregate, hasAggregate, anyAggregate_mapAll args]

theorem anyAggregate_mapAll : (args : List Argument) →
    anyAggregate (mapAll f args) = anyAggregate args
  | [] => rfl
  | a :: args => by
      rw [mapAll, anyAggregate, anyAggregate, hasAggregate_mapLiterals a, anyAggregate_mapAll args]

end

end Argument

namespace Predicate

mutual

theorem conditions_mapLiterals : (p : Predicate) →
    (p.mapLiterals f).conditions = p.conditions.map (Condition.mapLiterals f)
  | .condition _ => rfl
  | .group _ members => by
      rw [mapLiterals, conditions, conditions, conditionsOf_mapAll members]

theorem conditionsOf_mapAll : (ps : List Predicate) →
    conditionsOf (mapAll f ps) = (conditionsOf ps).map (Condition.mapLiterals f)
  | [] => rfl
  | p :: ps => by
      rw [mapAll, conditionsOf, conditionsOf, conditions_mapLiterals p, conditionsOf_mapAll ps,
        List.map_append]

end

end Predicate

theorem WhereClause.conditions_mapLiterals (w : WhereClause) :
    (w.mapLiterals f).conditions = w.conditions.map (Condition.mapLiterals f) :=
  Predicate.conditionsOf_mapAll w.members

/-- A field keeps its function, and the aggregates it holds. -/
theorem Condition.aggregateField?_mapLiterals (c : Condition) :
    (c.mapLiterals f).aggregateField? = c.aggregateField?.map (Call.mapLiterals f) := by
  obtain ⟨field, op, value⟩ := c
  cases field with
  | column name => rfl
  | call call =>
      have same : (call.mapLiterals f).hasAggregate = call.hasAggregate :=
        call.toArgument.hasAggregate_mapLiterals
      simp only [aggregateField?, mapLiterals, Field.mapLiterals, same]
      split <;> rfl

theorem Configuration.clauseFault?_mapLiterals (c : Configuration) (parameters : Declarations) :
    clauseFault? { c.mapLiterals f with parameters } = c.clauseFault? := by
  have fields : (c.select.mapLiterals f).fields.isEmpty = c.select.fields.isEmpty := by
    rw [Select.mapLiterals, List.isEmpty_map]
  have aggregate : ((c.conditions.mapLiterals f).conditions.findSome?
        Condition.aggregateField?).map (fun call => Defect.aggregateInWhere call.function) =
      (c.conditions.conditions.findSome? Condition.aggregateField?).map
        fun call => .aggregateInWhere call.function := by
    rw [WhereClause.conditions_mapLiterals, List.findSome?_map]
    induction c.conditions.conditions with
    | nil => rfl
    | cons condition rest ih =>
        rw [List.findSome?_cons, List.findSome?_cons, Function.comp,
          Condition.aggregateField?_mapLiterals]
        cases condition.aggregateField? with
        | none => exact ih
        | some call => rfl
  simp only [clauseFault?, mapLiterals, fields, aggregate]

namespace Argument

mutual

theorem placeholders_mapLiterals (same : ∀ l : Literal, (f l).placeholder? = l.placeholder?) :
    (a : Argument) → (a.mapLiterals f).placeholders = a.placeholders
  | .literal l => congrArg Option.toList (same l)
  | .column _ => rfl
  | .call _ args => by
      rw [mapLiterals, placeholders, placeholders, placeholdersOf_mapAll same args]

theorem placeholdersOf_mapAll (same : ∀ l : Literal, (f l).placeholder? = l.placeholder?) :
    (args : List Argument) → placeholdersOf (mapAll f args) = placeholdersOf args
  | [] => rfl
  | a :: args => by
      rw [mapAll, placeholdersOf, placeholdersOf, placeholders_mapLiterals same a,
        placeholdersOf_mapAll same args]

end

end Argument

section Placeholders

variable (same : ∀ l : Literal, (f l).placeholder? = l.placeholder?)

include same

theorem Condition.placeholders_mapLiterals (c : Condition) :
    (c.mapLiterals f).placeholders = c.placeholders := by
  obtain ⟨field, op, value⟩ := c
  have call (c : Call) : (c.mapLiterals f).placeholders = c.placeholders :=
    Argument.placeholders_mapLiterals same c.toArgument
  have left : (field.mapLiterals f).placeholders = field.placeholders := by
    cases field with
    | column name => rfl
    | call c => exact call c
  have right : (value.mapLiterals f).placeholders = value.placeholders := by
    cases value with
    | absent => rfl
    | call c => exact call c
    | scalar l =>
        simp only [Operand.mapLiterals, Operand.placeholders, Operand.literals, List.filterMap_cons,
          same]
    | list items =>
        simp only [Operand.mapLiterals, Operand.placeholders, Operand.literals, List.filterMap_map]
        congr 1
        funext l
        exact same l
  rw [placeholders, placeholders, mapLiterals, left, right]

namespace Configuration

theorem placeholders_mapLiterals (c : Configuration) (parameters : Declarations) :
    placeholders { c.mapLiterals f with parameters } = c.placeholders := by
  simp only [placeholders, mapLiterals, WhereClause.conditions_mapLiterals, ← List.map_append,
    List.flatMap_map, Condition.placeholders_mapLiterals same]

theorem referenceFault?_mapLiterals (c : Configuration) {parameters : Declarations}
    (keys : parameters.keys = c.parameters.keys) :
    referenceFault? { c.mapLiterals f with parameters } = c.referenceFault? := by
  have undeclared : parameters.isEmpty = c.parameters.isEmpty := by
    have empty := congrArg List.isEmpty keys
    simpa only [NameMap.keys, List.isEmpty_map, NameMap.isEmpty] using empty
  have declared (name : String) : parameters.contains name = c.parameters.contains name :=
    NameMap.contains_of_keys keys name
  have aliases : aliases { c.mapLiterals f with parameters } = c.aliases := rfl
  simp only [referenceFault?, aliases, undeclared, declared, keys, placeholders_mapLiterals same]

/-- The check finds the same whether literals are replaced or not. -/
theorem validate_mapLiterals (c : Configuration) {parameters : Declarations}
    (keys : parameters.keys = c.parameters.keys) :
    validate { c.mapLiterals f with parameters } = c.validate := by
  rw [validate, validate, clauseFault?_mapLiterals, referenceFault?_mapLiterals same c keys]

end Configuration

end Placeholders

end RuleQuery
