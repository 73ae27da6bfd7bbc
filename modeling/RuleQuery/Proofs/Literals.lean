/-
# The literals of a configuration

A configuration is a tree with literals at its leaves. `literals` lists them and `mapLiterals` puts
others in their place, for each type of node; what leaves the literals of a node alone leaves the
node alone. The defaults of parameters are not part of the tree of a statement and are kept apart.

A node is made again from replaced literals if the replacement keeps the kind of a literal, which is
all that a constructor asks about one.
-/

import RuleQuery.Proofs.Construction

namespace RuleQuery

variable {f : Literal → Literal}

theorem map_of_fixed {α : Type} {g : α → α} {as : List α} (fixed : ∀ a ∈ as, g a = a) :
    as.map g = as := by
  have same : as.map g = as.map id := List.map_congr_left fixed
  rw [same, List.map_id]

namespace Argument

mutual

/-- The literals of an argument, from left to right. -/
def literals : Argument → List Literal
  | .literal l => [l]
  | .column _ => []
  | .call _ args => literalsOf args

def literalsOf : List Argument → List Literal
  | [] => []
  | a :: as => a.literals ++ literalsOf as

end

mutual

/-- Replace every literal of an argument. -/
def mapLiterals (f : Literal → Literal) : Argument → Argument
  | .literal l => .literal (f l)
  | .column name => .column name
  | .call function args => .call function (mapAll f args)

def mapAll (f : Literal → Literal) : List Argument → List Argument
  | [] => []
  | a :: as => a.mapLiterals f :: mapAll f as

end

mutual

theorem mapLiterals_of_fixed : (a : Argument) → (∀ l ∈ a.literals, f l = l) →
    a.mapLiterals f = a
  | .literal l, fixed => by rw [mapLiterals, fixed l (by simp [literals])]
  | .column _, _ => by rw [mapLiterals]
  | .call _ args, fixed => by
      rw [mapLiterals, mapAll_of_fixed args]
      rwa [literals] at fixed

theorem mapAll_of_fixed : (args : List Argument) → (∀ l ∈ literalsOf args, f l = l) →
    mapAll f args = args
  | [], _ => by rw [mapAll]
  | a :: args, fixed => by
      rw [literalsOf] at fixed
      rw [mapAll, mapLiterals_of_fixed a fun l mem => fixed l (List.mem_append_left _ mem),
        mapAll_of_fixed args fun l mem => fixed l (List.mem_append_right _ mem)]

end

theorem mapAll_eq_map (args : List Argument) : mapAll f args = args.map (mapLiterals f) := by
  induction args with
  | nil => rw [mapAll, List.map_nil]
  | cons a args ih => rw [mapAll, ih, List.map_cons]

theorem mem_literalsOf {l : Literal} {args : List Argument} :
    l ∈ literalsOf args ↔ ∃ a ∈ args, l ∈ a.literals := by
  induction args with
  | nil => simp [literalsOf]
  | cons a args ih => simp [literalsOf, ih]

end Argument

namespace Call

def literals (c : Call) : List Literal := c.toArgument.literals

def mapLiterals (f : Literal → Literal) (c : Call) : Call :=
  ⟨c.function, Argument.mapAll f c.arguments⟩

theorem mapLiterals_of_fixed {c : Call} (fixed : ∀ l ∈ c.literals, f l = l) :
    c.mapLiterals f = c := by
  rw [literals, toArgument, Argument.literals] at fixed
  rw [mapLiterals, Argument.mapAll_of_fixed c.arguments fixed]

/-- Replacing literals leaves the columns where they are. -/
theorem badColumn?_mapAll (args : List Argument) :
    badColumn? (Argument.mapAll f args) = badColumn? args := by
  rw [Argument.mapAll_eq_map, badColumn?, List.findSome?_map]
  congr 1
  funext a
  cases a <;> simp [Argument.mapLiterals]

/-- A call is made again from replaced literals. -/
theorem make_mapAll {function : String} {args : List Argument} {c : Call}
    (made : make function args = .ok c) :
    make function (Argument.mapAll f args) = .ok (c.mapLiterals f) := by
  have filled : (Argument.mapAll f args).isEmpty = args.isEmpty := by
    rw [Argument.mapAll_eq_map, List.isEmpty_map]
  obtain ⟨rfl, identifier, nonempty, columns⟩ := of_make made
  unfold make at made ⊢
  rw [filled, badColumn?_mapAll, columns]
  split at made
  · cases made
  next shown =>
    rw [if_neg shown, identifier]
    simp [nonempty, mapLiterals]

end Call

namespace Field

def literals : Field → List Literal
  | .column _ => []
  | .call c => c.literals

def mapLiterals (f : Literal → Literal) : Field → Field
  | .column name => .column name
  | .call c => .call (c.mapLiterals f)

theorem mapLiterals_of_fixed {field : Field} (fixed : ∀ l ∈ field.literals, f l = l) :
    field.mapLiterals f = field := by
  cases field with
  | column name => rfl
  | call c => rw [mapLiterals, Call.mapLiterals_of_fixed fixed]

theorem check_mapLiterals (field : Field) : (field.mapLiterals f).check = field.check := by
  cases field <;> rfl

end Field

namespace Operand

/-- The literals of a value, those in a call included. -/
def allLiterals : Operand → List Literal
  | .call c => c.literals
  | v => v.literals

def mapLiterals (f : Literal → Literal) : Operand → Operand
  | .absent => .absent
  | .scalar l => .scalar (f l)
  | .list items => .list (items.map f)
  | .call c => .call (c.mapLiterals f)

theorem mapLiterals_of_fixed {v : Operand} (fixed : ∀ l ∈ v.allLiterals, f l = l) :
    v.mapLiterals f = v := by
  cases v with
  | absent => rfl
  | scalar l => rw [mapLiterals, fixed l (List.mem_singleton_self l)]
  | list items =>
      have same : items.map f = items := map_of_fixed fixed
      rw [mapLiterals, same]
  | call c => rw [mapLiterals, Call.mapLiterals_of_fixed fixed]

theorem normal_normal (v : Operand) : v.normal.normal = v.normal := by
  cases v with
  | scalar l => cases l <;> rfl
  | _ => rfl

variable (keeps : ∀ l, (f l).kind = l.kind)

include keeps

/-- What keeps the kind of a literal neither makes NULL nor takes it away. -/
theorem eq_null_iff (l : Literal) : f l = .null ↔ l = .null := by
  have null (m : Literal) : m = .null ↔ m.kind = .null := by
    cases m <;> simp [Literal.kind]
  rw [null, null, keeps]

theorem normal_mapLiterals (v : Operand) :
    (v.mapLiterals f).normal = v.normal.mapLiterals f := by
  cases v with
  | scalar l =>
      by_cases null : l = .null
      · rw [mapLiterals, (eq_null_iff keeps l).mpr null, null]
        rfl
      · have kept := mt (eq_null_iff keeps l).mp null
        unfold normal mapLiterals
        split <;> simp_all
  | _ => rfl

theorem check_mapLiterals (op : Comparison) (v : Operand) :
    check op (v.mapLiterals f) = check op v := by
  cases v with
  | absent => rfl
  | scalar l => cases op <;> rfl
  | call c => cases op <;> rfl
  | list items =>
      rcases items with _ | ⟨low, _ | ⟨high, _ | ⟨l, rest⟩⟩⟩
      · cases op <;> rfl
      · cases op <;> rfl
      · have bounds : checkBounds (.list [f low, f high]) = checkBounds (.list [low, high]) := by
          simp only [checkBounds, keeps, eq_null_iff keeps]
        cases op <;> first | rfl | exact bounds
      · cases op <;> rfl

end Operand

namespace Condition

def literals (c : Condition) : List Literal :=
  c.field.literals ++ c.value.allLiterals

def mapLiterals (f : Literal → Literal) (c : Condition) : Condition :=
  ⟨c.field.mapLiterals f, c.op, c.value.mapLiterals f⟩

theorem mapLiterals_of_fixed {c : Condition} (fixed : ∀ l ∈ c.literals, f l = l) :
    c.mapLiterals f = c := by
  rw [mapLiterals, Field.mapLiterals_of_fixed fun l mem => fixed l (List.mem_append_left _ mem),
    Operand.mapLiterals_of_fixed fun l mem => fixed l (List.mem_append_right _ mem)]

/-- A condition is made again from replaced literals. -/
theorem make_mapLiterals (keeps : ∀ l, (f l).kind = l.kind) {field : Field} {op : Comparison}
    {value : Operand} {c : Condition} (made : make field op value = .ok c) :
    make (c.field.mapLiterals f) c.op (c.value.mapLiterals f) = .ok (c.mapLiterals f) := by
  obtain ⟨rfl, fieldCheck, valueCheck⟩ := of_make made
  have again : (value.normal.mapLiterals f).normal = value.normal.mapLiterals f := by
    rw [Operand.normal_mapLiterals keeps, Operand.normal_normal]
  simp only [make, again, Field.check_mapLiterals, Operand.check_mapLiterals keeps, fieldCheck,
    valueCheck, bind, Except.bind, pure, Except.pure, mapLiterals]

end Condition

namespace Predicate

def literals (p : Predicate) : List Literal :=
  p.conditions.flatMap Condition.literals

mutual

/-- Replace every literal of a predicate. -/
def mapLiterals (f : Literal → Literal) : Predicate → Predicate
  | .condition c => .condition (c.mapLiterals f)
  | .group connective members => .group connective (mapAll f members)

def mapAll (f : Literal → Literal) : List Predicate → List Predicate
  | [] => []
  | p :: ps => p.mapLiterals f :: mapAll f ps

end

mutual

theorem mapLiterals_of_conditions : (p : Predicate) →
    (∀ c ∈ p.conditions, c.mapLiterals f = c) → p.mapLiterals f = p
  | .condition c, fixed => by rw [mapLiterals, fixed c (by simp [conditions])]
  | .group _ members, fixed => by
      rw [conditions] at fixed
      rw [mapLiterals, mapAll_of_conditions members fixed]

theorem mapAll_of_conditions : (ps : List Predicate) →
    (∀ c ∈ conditionsOf ps, c.mapLiterals f = c) → mapAll f ps = ps
  | [], _ => by rw [mapAll]
  | p :: ps, fixed => by
      rw [conditionsOf] at fixed
      rw [mapAll, mapLiterals_of_conditions p fun c mem => fixed c (List.mem_append_left _ mem),
        mapAll_of_conditions ps fun c mem => fixed c (List.mem_append_right _ mem)]

end

theorem mapLiterals_of_fixed {p : Predicate} (fixed : ∀ l ∈ p.literals, f l = l) :
    p.mapLiterals f = p := by
  apply mapLiterals_of_conditions
  intro c mem
  exact Condition.mapLiterals_of_fixed fun l leaf => fixed l (List.mem_flatMap.mpr ⟨c, mem, leaf⟩)

theorem mem_literals_group {l : Literal} {connective : Connective} {members : List Predicate} :
    l ∈ (Predicate.group connective members).literals ↔ ∃ p ∈ members, l ∈ p.literals := by
  simp only [literals, conditions, List.mem_flatMap, mem_conditionsOf]
  constructor
  · rintro ⟨c, ⟨p, member, condition⟩, leaf⟩
    exact ⟨p, member, c, condition, leaf⟩
  · rintro ⟨p, member, c, condition, leaf⟩
    exact ⟨c, ⟨p, member, condition⟩, leaf⟩

theorem mapAll_eq_map (ps : List Predicate) : mapAll f ps = ps.map (mapLiterals f) := by
  induction ps with
  | nil => rw [mapAll, List.map_nil]
  | cons p ps ih => rw [mapAll, ih, List.map_cons]

theorem mapAll_of_fixed {ps : List Predicate} (fixed : ∀ p ∈ ps, ∀ l ∈ p.literals, f l = l) :
    mapAll f ps = ps := by
  rw [mapAll_eq_map]
  exact map_of_fixed fun p mem => mapLiterals_of_fixed (fixed p mem)

end Predicate

namespace Group

def literals (g : Group) : List Literal := g.toPredicate.literals

theorem mem_literals {l : Literal} {g : Group} :
    l ∈ g.literals ↔ ∃ p ∈ g.members, l ∈ p.literals :=
  Predicate.mem_literals_group

def mapLiterals (f : Literal → Literal) (g : Group) : Group :=
  ⟨g.connective, Predicate.mapAll f g.members⟩

/-- A group is made again with its connective, whatever its members are replaced by. -/
theorem make_mapLiterals {members : List Predicate} {connective : Option Connective} {g : Group}
    (made : make members connective = .ok g) :
    make (Predicate.mapAll f g.members) (some g.connective) = .ok (g.mapLiterals f) := by
  obtain ⟨same, nonempty⟩ := of_make made
  cases members with
  | nil => exact absurd rfl nonempty
  | cons p ps =>
      rw [mapLiterals, same, Predicate.mapAll, make]
      simp

end Group

namespace WhereClause

def literals (w : WhereClause) : List Literal :=
  w.conditions.flatMap Condition.literals

theorem mem_literals {l : Literal} {w : WhereClause} :
    l ∈ w.literals ↔ ∃ p ∈ w.members, l ∈ p.literals := by
  have group : l ∈ (Predicate.group .and w.members).literals ↔ _ := Predicate.mem_literals_group
  rwa [Predicate.literals, Predicate.conditions] at group

def mapLiterals (f : Literal → Literal) (w : WhereClause) : WhereClause :=
  ⟨Predicate.mapAll f w.members⟩

end WhereClause

namespace Selected

def literals : Selected → List Literal
  | .raw _ => []
  | .call c => c.literals

def mapLiterals (f : Literal → Literal) : Selected → Selected
  | .raw text => .raw text
  | .call c => .call (c.mapLiterals f)

theorem mapLiterals_of_fixed {s : Selected} (fixed : ∀ l ∈ s.literals, f l = l) :
    s.mapLiterals f = s := by
  cases s with
  | raw text => rfl
  | call c => rw [mapLiterals, Call.mapLiterals_of_fixed fixed]

end Selected

namespace SelectField

def literals (field : SelectField) : List Literal := field.expression.literals

def mapLiterals (f : Literal → Literal) (field : SelectField) : SelectField :=
  ⟨field.expression.mapLiterals f, field.aliasName⟩

theorem mapLiterals_of_fixed {field : SelectField} (fixed : ∀ l ∈ field.literals, f l = l) :
    field.mapLiterals f = field := by
  rw [mapLiterals, Selected.mapLiterals_of_fixed fixed]

/-- A field is made again from replaced literals. -/
theorem make_mapLiterals {expression : Selected} {aliasName : Option String} {field : SelectField}
    (made : make expression aliasName = .ok field) :
    make (field.expression.mapLiterals f) field.aliasName = .ok (field.mapLiterals f) := by
  obtain ⟨rfl, checked⟩ := of_make made
  cases expression with
  | raw text => exact made
  | call c => simp [make, Selected.mapLiterals, checked, mapLiterals, Except.map]

end SelectField

namespace Select

def literals (s : Select) : List Literal := s.fields.flatMap SelectField.literals

def mapLiterals (f : Literal → Literal) (s : Select) : Select :=
  ⟨s.fields.map (SelectField.mapLiterals f)⟩

theorem make_mapLiterals {fields : List SelectField} {s : Select} (made : make fields = .ok s) :
    make (s.fields.map (SelectField.mapLiterals f)) = .ok (s.mapLiterals f) := by
  obtain ⟨rfl, nonempty⟩ := of_make made
  simp [make, nonempty, mapLiterals]

end Select

namespace Configuration

/-- The literals of the statement: of the select list, of WHERE and of HAVING. -/
def statementLiterals (c : Configuration) : List Literal :=
  c.select.literals ++ c.conditions.literals ++ c.having.flatMap Condition.literals

/-- The defaults of the declared parameters. -/
def defaults (c : Configuration) : List Literal :=
  c.parameters.entries.filterMap (·.2.default)

/-- All literals of a configuration. -/
def literals (c : Configuration) : List Literal :=
  c.statementLiterals ++ c.defaults

/-- Replace every literal of the statement; the declarations stay as they are. -/
def mapLiterals (f : Literal → Literal) (c : Configuration) : Configuration :=
  { c with
    select := c.select.mapLiterals f
    conditions := c.conditions.mapLiterals f
    having := c.having.map (Condition.mapLiterals f) }

end Configuration

/-! ## Nodes whose literals stay -/

theorem WhereClause.mapLiterals_of_fixed {w : WhereClause} (fixed : ∀ l ∈ w.literals, f l = l) :
    w.mapLiterals f = w := by
  have members : Predicate.mapAll f w.members = w.members :=
    Predicate.mapAll_of_fixed fun p mem l leaf => fixed l (mem_literals.mpr ⟨p, mem, leaf⟩)
  rw [mapLiterals, members]

theorem Group.mapLiterals_of_fixed {g : Group} (fixed : ∀ l ∈ g.literals, f l = l) :
    g.mapLiterals f = g := by
  have members : Predicate.mapAll f g.members = g.members :=
    Predicate.mapAll_of_fixed fun p mem l leaf => fixed l (mem_literals.mpr ⟨p, mem, leaf⟩)
  rw [mapLiterals, members]

theorem Select.mapLiterals_of_fixed {s : Select} (fixed : ∀ l ∈ s.literals, f l = l) :
    s.mapLiterals f = s := by
  have fields : s.fields.map (SelectField.mapLiterals f) = s.fields := by
    apply map_of_fixed
    intro field mem
    exact SelectField.mapLiterals_of_fixed fun l leaf =>
      fixed l (List.mem_flatMap.mpr ⟨field, mem, leaf⟩)
  rw [mapLiterals, fields]

theorem Configuration.mapLiterals_of_fixed {c : Configuration}
    (fixed : ∀ l ∈ c.statementLiterals, f l = l) : c.mapLiterals f = c := by
  simp only [statementLiterals, List.mem_append] at fixed
  have select := Select.mapLiterals_of_fixed fun l mem => fixed l (.inl (.inl mem))
  have conditions := WhereClause.mapLiterals_of_fixed fun l mem => fixed l (.inl (.inr mem))
  have having : c.having.map (Condition.mapLiterals f) = c.having := by
    apply map_of_fixed
    intro condition mem
    exact Condition.mapLiterals_of_fixed fun l leaf =>
      fixed l (.inr (List.mem_flatMap.mpr ⟨condition, mem, leaf⟩))
  rw [mapLiterals, select, conditions, having]

end RuleQuery
