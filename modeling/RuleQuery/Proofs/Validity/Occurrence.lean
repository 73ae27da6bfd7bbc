/-
# What stands where in a condition

The check of a configuration walks through trees: through the groups of the WHERE clause down to its
conditions, and in a condition through the arguments of its calls. Where there is something to be
found is said here without a walk, by what stands inside what, and each walk is shown to find just
that: the conditions of a predicate, the aggregates in a field, the placeholders in a condition.

A condition holds arguments in two places. Those of its field stand in a call. Those of its value
stand in a call as well, or are the literals that the value consists of.
-/

import RuleQuery.Configuration.Validity

namespace RuleQuery

namespace Argument

/-- An argument stands in another one: it is that one, or it stands in an argument of that call. -/
inductive Inside : Argument → Argument → Prop
  | here {a : Argument} : Inside a a
  | argument {a b : Argument} {function : String} {args : List Argument} (mem : b ∈ args)
      (inside : Inside a b) : Inside a (.call function args)

/-- A call of an aggregate, in any case of its letters. -/
def IsAggregate : Argument → Prop
  | .call function _ => ∃ name ∈ aggregates, Text.sameLetters function name = true
  | _ => False

/-- A literal that stands for a parameter. -/
def StandsFor (name : String) : Argument → Prop
  | .literal l => l.placeholder? = some name
  | _ => False

theorem inside_literal {a : Argument} {l : Literal} : a.Inside (.literal l) ↔ a = .literal l := by
  constructor
  · rintro ⟨⟩
    rfl
  · rintro rfl
    exact .here

theorem inside_column {a : Argument} {name : String} :
    a.Inside (.column name) ↔ a = .column name := by
  constructor
  · rintro ⟨⟩
    rfl
  · rintro rfl
    exact .here

theorem inside_call {a : Argument} {function : String} {args : List Argument} :
    a.Inside (.call function args) ↔ a = .call function args ∨ ∃ b ∈ args, a.Inside b := by
  constructor
  · intro inside
    cases inside with
    | here => exact .inl rfl
    | argument mem inside => exact .inr ⟨_, mem, inside⟩
  · rintro (rfl | ⟨b, mem, inside⟩)
    · exact .here
    · exact .argument mem inside

/-- What stands in a call is the call, or it stands in one of its arguments. -/
theorem exists_inside_call {P : Argument → Prop} {function : String} {args : List Argument} :
    (∃ a, P a ∧ a.Inside (.call function args)) ↔
      P (.call function args) ∨ ∃ b ∈ args, ∃ a, P a ∧ a.Inside b := by
  simp only [inside_call]
  constructor
  · rintro ⟨a, holds, rfl | ⟨b, mem, inside⟩⟩
    · exact .inl holds
    · exact .inr ⟨b, mem, a, holds, inside⟩
  · rintro (holds | ⟨b, mem, a, holds, inside⟩)
    · exact ⟨_, holds, .inl rfl⟩
    · exact ⟨a, holds, .inr ⟨b, mem, inside⟩⟩

/-- The names of aggregates are in capitals already. -/
theorem upperAscii_of_mem_aggregates : ∀ name ∈ aggregates, Text.upperAscii name = name := by
  decide

theorem isAggregateName_iff {function : String} :
    isAggregateName function = true ↔
      ∃ name ∈ aggregates, Text.sameLetters function name = true := by
  simp only [isAggregateName, List.contains_iff_mem, Text.sameLetters, beq_iff_eq]
  constructor
  · intro mem
    exact ⟨_, mem, (upperAscii_of_mem_aggregates _ mem).symm⟩
  · rintro ⟨name, mem, same⟩
    rw [same, upperAscii_of_mem_aggregates name mem]
    exact mem

mutual

/-- The search for an aggregate finds one wherever it stands. -/
theorem hasAggregate_iff : (a : Argument) →
    (a.hasAggregate = true ↔ ∃ b : Argument, b.IsAggregate ∧ b.Inside a)
  | .literal _ => by simp [hasAggregate, inside_literal, IsAggregate]
  | .column _ => by simp [hasAggregate, inside_column, IsAggregate]
  | .call function args => by
      rw [hasAggregate, Bool.or_eq_true, isAggregateName_iff, anyAggregate_iff args,
        exists_inside_call]
      rfl

theorem anyAggregate_iff : (args : List Argument) →
    (anyAggregate args = true ↔ ∃ a ∈ args, ∃ b : Argument, b.IsAggregate ∧ b.Inside a)
  | [] => by simp [anyAggregate]
  | a :: args => by
      rw [anyAggregate, Bool.or_eq_true, hasAggregate_iff a, anyAggregate_iff args]
      simp only [List.mem_cons, exists_eq_or_imp]

end

mutual

/-- The placeholders that are collected are those that stand somewhere. -/
theorem mem_placeholders_iff {name : String} : (a : Argument) →
    (name ∈ a.placeholders ↔ ∃ b : Argument, b.StandsFor name ∧ b.Inside a)
  | .literal l => by simp [placeholders, inside_literal, StandsFor]
  | .column _ => by simp [placeholders, inside_column, StandsFor]
  | .call function args => by
      rw [placeholders, mem_placeholdersOf_iff args, exists_inside_call]
      simp [StandsFor]

theorem mem_placeholdersOf_iff {name : String} : (args : List Argument) →
    (name ∈ placeholdersOf args ↔ ∃ a ∈ args, ∃ b : Argument, b.StandsFor name ∧ b.Inside a)
  | [] => by simp [placeholdersOf]
  | a :: args => by
      rw [placeholdersOf, List.mem_append, mem_placeholders_iff a, mem_placeholdersOf_iff args]
      simp only [List.mem_cons, exists_eq_or_imp]

end

end Argument

/-- An argument stands in a field. -/
def Field.Holds (a : Argument) : Field → Prop
  | .column _ => False
  | .call c => a.Inside c.toArgument

/-- An argument stands in a value. -/
def Operand.Holds (a : Argument) : Operand → Prop
  | .absent => False
  | .scalar l => a = .literal l
  | .list items => ∃ l ∈ items, a = .literal l
  | .call c => a.Inside c.toArgument

/-- An argument stands in a condition, on one side or the other. -/
def Condition.Holds (a : Argument) (c : Condition) : Prop := c.field.Holds a ∨ c.value.Holds a

theorem Field.mem_placeholders_iff {name : String} {field : Field} :
    name ∈ field.placeholders ↔ ∃ a : Argument, a.StandsFor name ∧ field.Holds a := by
  cases field with
  | column _ => simp [placeholders, Holds]
  | call c => exact Argument.mem_placeholders_iff c.toArgument

theorem Operand.mem_placeholders_iff {name : String} {v : Operand} :
    name ∈ v.placeholders ↔ ∃ a : Argument, a.StandsFor name ∧ v.Holds a := by
  cases v with
  | absent => simp [placeholders, literals, Holds]
  | scalar l => simp [placeholders, literals, Holds, Argument.StandsFor]
  | list items =>
      simp only [placeholders, literals, List.mem_filterMap, Holds]
      constructor
      · rintro ⟨l, mem, parameter⟩
        exact ⟨.literal l, parameter, l, mem, rfl⟩
      · rintro ⟨_, parameter, l, mem, rfl⟩
        exact ⟨l, mem, parameter⟩
  | call c => exact Argument.mem_placeholders_iff c.toArgument

theorem Condition.mem_placeholders_iff {name : String} {c : Condition} :
    name ∈ c.placeholders ↔ ∃ a : Argument, a.StandsFor name ∧ c.Holds a := by
  rw [placeholders, List.mem_append, Field.mem_placeholders_iff, Operand.mem_placeholders_iff,
    ← exists_or]
  apply exists_congr
  intro a
  rw [Holds, and_or_left]

/-- An aggregate is looked for in the field of a condition, and nowhere else. -/
theorem Condition.aggregateField?_eq_none_iff {c : Condition} :
    c.aggregateField? = none ↔ ∀ a : Argument, a.IsAggregate → ¬ c.field.Holds a := by
  obtain ⟨field, op, value⟩ := c
  cases field with
  | column _ => simp [aggregateField?, Field.Holds]
  | call call =>
      have search : aggregateField? ⟨.call call, op, value⟩ = none ↔
          ¬ call.toArgument.hasAggregate = true := by
        show (if call.toArgument.hasAggregate then some call else none) = none ↔ _
        split <;> simp [*]
      rw [search, Argument.hasAggregate_iff, not_exists]
      exact forall_congr' fun a => not_and

/-- A condition stands in a predicate: it is that predicate, or it stands in a member of that
group. -/
inductive Condition.Inside : Condition → Predicate → Prop
  | here {c : Condition} : Inside c (.condition c)
  | member {c : Condition} {p : Predicate} {connective : Connective} {members : List Predicate}
      (mem : p ∈ members) (inside : Inside c p) : Inside c (.group connective members)

/-- A condition stands in the WHERE clause. -/
def Condition.InClause (c : Condition) (w : WhereClause) : Prop := ∃ p ∈ w.members, c.Inside p

namespace Predicate

mutual

/-- The conditions that are collected are those that stand somewhere. -/
theorem mem_conditions_iff {c : Condition} : (p : Predicate) → (c ∈ p.conditions ↔ c.Inside p)
  | .condition d => by
      rw [conditions, List.mem_singleton]
      constructor
      · rintro rfl
        exact .here
      · rintro ⟨⟩
        rfl
  | .group _ members => by
      rw [conditions, mem_conditionsOf_iff members]
      constructor
      · rintro ⟨p, mem, inside⟩
        exact .member mem inside
      · rintro ⟨⟩
        exact ⟨_, ‹_›, ‹_›⟩

theorem mem_conditionsOf_iff {c : Condition} : (ps : List Predicate) →
    (c ∈ conditionsOf ps ↔ ∃ p ∈ ps, c.Inside p)
  | [] => by simp [conditionsOf]
  | p :: ps => by
      rw [conditionsOf, List.mem_append, mem_conditions_iff p, mem_conditionsOf_iff ps]
      simp only [List.mem_cons, exists_eq_or_imp]

end

end Predicate

theorem WhereClause.mem_conditions_iff {c : Condition} {w : WhereClause} :
    c ∈ w.conditions ↔ c.InClause w :=
  Predicate.mem_conditionsOf_iff w.members

end RuleQuery
