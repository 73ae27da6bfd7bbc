/-
# What the constructors can build

The types of the tree say less than its constructors demand: nothing in `Predicate` forbids a group
without members, and nothing in `Call` a name with a space. What can stand in a configuration is
what its constructors make, one inside the other. `Built` says this once for each type of node, with
`make` itself as the only test, and an argument, a field or a value of its own is as free as its
type, because only the node that takes it looks at it.

A configuration is built step by step. `Configuration.Built.parts` says what the steps come to:
every part of it is built, whatever their order and however often one of them is taken; and
`Configuration.Parts.built` says that they come to nothing else.
-/

import Mathlib.Tactic.ByContra
import RuleQuery.Configuration
import RuleQuery.Proofs.NameMap

namespace RuleQuery

/-- An argument: any literal, any column, or a call made of such arguments. -/
inductive Argument.Built : Argument → Prop
  | literal (value : Literal) : Argument.Built (.literal value)
  | column (name : String) : Argument.Built (.column name)
  | call {function : String} {args : List Argument} {c : Call}
      (parts : ∀ a ∈ args, Argument.Built a) (made : Call.make function args = .ok c) :
      Argument.Built c.toArgument

/-- A call made of arguments that are built. -/
def Call.Built (c : Call) : Prop :=
  ∃ function args, (∀ a ∈ args, Argument.Built a) ∧ make function args = .ok c

/-- A field: any column, or a call. -/
inductive Field.Built : Field → Prop
  | column (name : String) : Field.Built (.column name)
  | call {c : Call} (built : c.Built) : Field.Built (.call c)

/-- A value: nothing, any literal, any list of literals, or a call. -/
inductive Operand.Built : Operand → Prop
  | absent : Operand.Built .absent
  | scalar (value : Literal) : Operand.Built (.scalar value)
  | list (items : List Literal) : Operand.Built (.list items)
  | call {c : Call} (built : c.Built) : Operand.Built (.call c)

def Condition.Built (c : Condition) : Prop :=
  ∃ field op value, Field.Built field ∧ Operand.Built value ∧ make field op value = .ok c

/-- A predicate: a condition, or a group of predicates that are built. -/
inductive Predicate.Built : Predicate → Prop
  | condition {c : Condition} (built : c.Built) : Predicate.Built (.condition c)
  | group {members : List Predicate} {connective : Option Connective} {g : Group}
      (parts : ∀ p ∈ members, Predicate.Built p) (made : Group.make members connective = .ok g) :
      Predicate.Built g.toPredicate

def Group.Built (g : Group) : Prop :=
  ∃ members connective, (∀ p ∈ members, Predicate.Built p) ∧ make members connective = .ok g

def WhereClause.Built (w : WhereClause) : Prop :=
  ∀ p ∈ w.members, Predicate.Built p

def TableRef.Built (t : TableRef) : Prop :=
  ∃ name aliasName, make name aliasName = .ok t

/-- A join as it is made, with any choice whether `AS` stands before its alias. -/
def Join.Built (j : Join) : Prop :=
  ∃ kind table aliasName condition made useAs,
    make kind table aliasName condition = .ok made ∧ j = { made with useAs }

inductive Selected.Built : Selected → Prop
  | raw (text : String) : Selected.Built (.raw text)
  | call {c : Call} (built : c.Built) : Selected.Built (.call c)

def SelectField.Built (f : SelectField) : Prop :=
  ∃ expression aliasName, Selected.Built expression ∧ make expression aliasName = .ok f

def Select.Built (s : Select) : Prop :=
  ∃ fields, (∀ f ∈ fields, SelectField.Built f) ∧ make fields = .ok s

/--
A configuration built from a select list and a table, one step after another. Parameters may be
declared in any way; adding a single join is adding a list of one.
-/
inductive Configuration.Built : Configuration → Prop
  | start {select : Select} {table : TableRef} (hs : select.Built) (ht : table.Built) :
      Configuration.Built (.start select table)
  | joins {c : Configuration} {joins : List Join} (hc : Configuration.Built c)
      (hj : ∀ j ∈ joins, Join.Built j) : Configuration.Built (c.withJoins joins)
  | conditions {c : Configuration} {conditions : WhereClause} (hc : Configuration.Built c)
      (hw : conditions.Built) : Configuration.Built (c.withConditions conditions)
  | predicate {c : Configuration} {p : Predicate} (hc : Configuration.Built c) (hp : p.Built) :
      Configuration.Built (c.withWhere p)
  | groupBy {c : Configuration} (hc : Configuration.Built c) (entries : List String) :
      Configuration.Built (c.withGroupBy entries)
  | having {c : Configuration} {condition : Condition} (hc : Configuration.Built c)
      (hh : condition.Built) : Configuration.Built (c.withHaving condition)
  | orderBy {c : Configuration} (hc : Configuration.Built c) (entries : List String) :
      Configuration.Built (c.withOrderBy entries)
  | parameter {c : Configuration} (hc : Configuration.Built c) (name : String) (p : Parameter) :
      Configuration.Built (c.withParameter name p)

/-- What a call has passed when it is made. -/
theorem Call.of_make {function : String} {args : List Argument} {c : Call}
    (made : make function args = .ok c) :
    c = ⟨function, args⟩ ∧ Name.isIdentifier function = true ∧ args ≠ [] ∧
      badColumn? args = none := by
  unfold make at made
  split at made
  · cases made
  · split at made
    · cases made
    next identifier =>
      split at made
      · cases made
      next nonempty =>
        split at made
        · cases made
        next columns =>
          cases made
          exact ⟨rfl, by simpa using identifier, by simpa using nonempty, columns⟩

theorem Call.Built.argument {c : Call} (built : c.Built) : c.toArgument.Built := by
  obtain ⟨function, args, parts, made⟩ := built
  exact .call parts made

/-- The columns among the arguments of a call are column references. -/
theorem Call.isColumnReference_of_badColumn? {args : List Argument} {name : String}
    (h : badColumn? args = none) (mem : Argument.column name ∈ args) :
    Name.isColumnReference name = true := by
  have passed := List.findSome?_eq_none_iff.mp h (.column name) mem
  by_contra bad
  simp [bad] at passed

/-- What a condition has passed when it is made. Its value is in normal form. -/
theorem Condition.of_make {field : Field} {op : Comparison} {value : Operand} {c : Condition}
    (made : make field op value = .ok c) :
    c = ⟨field, op, value.normal⟩ ∧ field.check = .ok () ∧
      Operand.check op value.normal = .ok () := by
  unfold make at made
  cases fieldCheck : field.check with
  | error e => simp [fieldCheck, bind, Except.bind] at made
  | ok _ =>
      cases valueCheck : Operand.check op value.normal with
      | error e => simp [fieldCheck, valueCheck, bind, Except.bind] at made
      | ok _ =>
          simp only [fieldCheck, valueCheck, bind, Except.bind, pure, Except.pure,
            Except.ok.injEq] at made
          exact ⟨made.symm, rfl, rfl⟩

theorem Field.isDotted_of_check {name : String} (h : (Field.column name).check = .ok ()) :
    Name.isDotted name = true := by
  by_contra bad
  simp [check, bad] at h

/-- The normal form of a value is as free as the value. -/
theorem Operand.Built.normal {v : Operand} (built : v.Built) : v.normal.Built := by
  unfold Operand.normal
  split
  · exact .absent
  · exact built

/-- What the value of a condition is, by its comparison. -/
def Operand.Suits (op : Comparison) (v : Operand) : Prop :=
  match op with
  | .isNull | .isNotNull => v = .absent
  | .isIn | .notIn => ∃ items, items ≠ [] ∧ v = .list items
  | .between => ∃ low high,
      v = .list [low, high] ∧ low.kind = high.kind ∧ low ≠ .null ∧ high ≠ .null
  | _ => ∀ items, v ≠ .list items

/-- The bounds of a range that pass their check are two literals of one kind, not NULL. -/
theorem Operand.suits_of_checkBounds {v : Operand} (checked : v.checkBounds = .ok ()) :
    v.Suits .between := by
  unfold checkBounds at checked
  split at checked
  next low high =>
    split at checked
    · cases checked
    next alike =>
      split at checked
      · cases checked
      next notNull =>
        have same : low.kind = high.kind := by simpa using alike
        refine ⟨low, high, rfl, same, notNull, ?_⟩
        -- Only NULL is of the kind of NULL.
        rintro rfl
        cases low <;> first | exact notNull rfl | cases same
  next => cases checked

/-- The check of a value asks for what suits the comparison. -/
theorem Operand.suits_of_check {op : Comparison} {v : Operand} (checked : check op v = .ok ()) :
    v.Suits op := by
  cases op with
  | between => exact suits_of_checkBounds checked
  | isNull | isNotNull => cases v <;> first | rfl | cases checked
  | isIn | notIn =>
      cases v with
      | list items =>
          cases items with
          | nil => cases checked
          | cons l items => exact ⟨l :: items, by simp, rfl⟩
      | _ => cases checked
  | _ =>
      rintro items rfl
      cases checked

theorem Operand.normal_ne_null (v : Operand) : v.normal ≠ .scalar .null := by
  unfold normal
  split
  · nofun
  next other => exact other

/-- A group has the members it is made of, and it has some. -/
theorem Group.of_make {members : List Predicate} {connective : Option Connective} {g : Group}
    (made : make members connective = .ok g) : g.members = members ∧ members ≠ [] := by
  unfold make at made
  split at made
  · cases made
  next nonempty =>
    cases made
    exact ⟨rfl, fun none => nonempty none⟩
  · cases made
    exact ⟨rfl, by simp⟩
  · cases made

theorem Group.Built.predicate {g : Group} (built : g.Built) : g.toPredicate.Built := by
  obtain ⟨members, connective, parts, made⟩ := built
  exact .group parts made

/-- An alias that passes its check is an identifier. -/
theorem isIdentifier_of_checkAlias {name : String} (h : checkAlias (some name) = .ok ()) :
    Name.isIdentifier name = true := by
  by_contra bad
  simp [checkAlias, bad] at h

theorem isDotted_of_checkTableName {name : String} (h : checkTableName name = .ok ()) :
    Name.isDotted name = true := by
  by_contra bad
  unfold checkTableName at h
  split at h <;> cases h

/-- What a table has passed when it is made. -/
theorem TableRef.of_make {name : String} {aliasName : Option String} {t : TableRef}
    (made : make name aliasName = .ok t) :
    t = ⟨name, aliasName⟩ ∧ checkTableName name = .ok () ∧ checkAlias aliasName = .ok () := by
  unfold make at made
  cases nameCheck : checkTableName name with
  | error e => simp [nameCheck, bind, Except.bind] at made
  | ok _ =>
      cases aliasCheck : checkAlias aliasName with
      | error e => simp [nameCheck, aliasCheck, bind, Except.bind] at made
      | ok _ =>
          simp only [nameCheck, aliasCheck, bind, Except.bind, pure, Except.pure,
            Except.ok.injEq] at made
          exact ⟨made.symm, rfl, rfl⟩

/-- What a join has passed when it is made. -/
theorem Join.of_make {kind : JoinKind} {table : String} {aliasName : Option String}
    {condition : String} {j : Join} (made : make kind table aliasName condition = .ok j) :
    j = ⟨kind, table, aliasName, condition, true⟩ ∧ checkTableName table = .ok () ∧
      checkAlias aliasName = .ok () ∧ Text.isBlankText condition = false := by
  unfold make at made
  cases nameCheck : checkTableName table with
  | error e => simp [nameCheck, bind, Except.bind] at made
  | ok _ =>
      cases aliasCheck : checkAlias aliasName with
      | error e => simp [nameCheck, aliasCheck, bind, Except.bind] at made
      | ok _ =>
          simp only [nameCheck, aliasCheck, bind, Except.bind, pure, Except.pure] at made
          split at made
          · cases made
          next shown =>
            cases made
            exact ⟨rfl, rfl, rfl, by simpa using shown⟩

/-- A field of the select list is what it is made of, and its alias has passed its check. -/
theorem SelectField.of_make {expression : Selected} {aliasName : Option String} {f : SelectField}
    (made : make expression aliasName = .ok f) :
    f = ⟨expression, aliasName⟩ ∧ checkAlias aliasName = .ok () := by
  unfold make at made
  cases aliasCheck : checkAlias aliasName with
  | error e =>
      cases expression with
      | raw text =>
          simp only [aliasCheck, Except.map] at made
          split at made <;> cases made
      | call c => simp [aliasCheck, Except.map] at made
  | ok _ =>
      cases expression with
      | raw text =>
          simp only [aliasCheck, Except.map] at made
          split at made
          · cases made
          · cases made
            exact ⟨rfl, rfl⟩
      | call c =>
          simp only [aliasCheck, Except.map] at made
          cases made
          exact ⟨rfl, rfl⟩

/-- A select list has the fields it is made of, and it has some. -/
theorem Select.of_make {fields : List SelectField} {s : Select} (made : make fields = .ok s) :
    s = ⟨fields⟩ ∧ fields ≠ [] := by
  unfold make at made
  split at made
  · cases made
  next nonempty =>
    cases made
    exact ⟨rfl, by simpa using nonempty⟩

/-- A single field makes a select list. -/
theorem Select.Built.single {field : SelectField} (built : field.Built) :
    Select.Built ⟨[field]⟩ := by
  refine ⟨[field], ?_, rfl⟩
  intro f mem
  rwa [List.mem_singleton.mp mem]

/-- Any members, at least one, make a group with a given connective. -/
theorem Predicate.Built.ofMembers {members : List Predicate} (connective : Connective)
    (nonempty : members ≠ []) (parts : ∀ p ∈ members, p.Built) :
    (Predicate.group connective members).Built := by
  cases members with
  | nil => exact absurd rfl nonempty
  | cons p ps =>
      have made : Group.make (p :: ps) (some connective) = .ok ⟨connective, p :: ps⟩ := rfl
      exact .group parts made

/-- Every part of a configuration that has constraints of its own is built. -/
structure Configuration.Parts (c : Configuration) : Prop where
  select : c.select.Built
  table : c.table.Built
  joins : ∀ j ∈ c.joins, Join.Built j
  conditions : c.conditions.Built
  having : ∀ condition ∈ c.having, Condition.Built condition

/-- No step of the building undoes what an earlier one has brought in. -/
theorem Configuration.Built.parts {c : Configuration} (built : c.Built) : c.Parts := by
  induction built with
  | start hs ht =>
      exact ⟨hs, ht, by simp [Configuration.start],
        by simp [Configuration.start, WhereClause.empty, WhereClause.Built],
        by simp [Configuration.start]⟩
  | joins _ hj ih =>
      refine { ih with joins := fun j mem => ?_ }
      rcases List.mem_append.mp mem with old | new
      · exact ih.joins j old
      · exact hj j new
  | conditions _ hw ih => exact { ih with conditions := hw }
  | predicate _ hp ih =>
      refine { ih with conditions := fun q mem => ?_ }
      rcases List.mem_append.mp mem with old | new
      · exact ih.conditions q old
      · rw [List.mem_singleton.mp new]
        exact hp
  | groupBy _ _ ih => exact { ih with }
  | having _ hh ih =>
      refine { ih with having := fun condition mem => ?_ }
      rcases List.mem_append.mp mem with old | new
      · exact ih.having condition old
      · rw [List.mem_singleton.mp new]
        exact hh
  | orderBy _ _ ih => exact { ih with }
  | parameter _ _ _ ih => exact { ih with }

/-- HAVING conditions are added one by one. -/
theorem Configuration.Built.withHavings {c : Configuration} (built : c.Built)
    {conditions : List Condition} (each : ∀ condition ∈ conditions, condition.Built) :
    Built { c with having := c.having ++ conditions } := by
  induction conditions generalizing c with
  | nil => simpa using built
  | cons condition conditions ih =>
      obtain ⟨first, rest⟩ := List.forall_mem_cons.mp each
      simpa [withHaving] using ih (built.having first) rest

/-- Parameters are declared one by one. -/
theorem Configuration.Built.withParameters {c : Configuration} (built : c.Built)
    (entries : List (String × Parameter)) :
    Built { c with parameters := entries.foldl (fun m e => m.insert e.1 e.2) c.parameters } := by
  induction entries generalizing c with
  | nil => exact built
  | cons e entries ih => exact ih (built.parameter e.1 e.2)

/-- Parts that are built can be put together. -/
theorem Configuration.Parts.built {c : Configuration} (parts : c.Parts) : c.Built := by
  have joined := (Built.start parts.select parts.table).joins parts.joins
  have grouped := (joined.conditions parts.conditions).groupBy c.groupBy
  have ordered := (grouped.withHavings parts.having).orderBy c.orderBy
  have declared : c.parameters.entries.foldl (fun m e => m.insert e.1 e.2) NameMap.empty =
      c.parameters := NameMap.ofList_entries c.parameters
  simpa [start, withJoins, withConditions, withGroupBy, withOrderBy, declared] using
    ordered.withParameters c.parameters.entries

end RuleQuery
