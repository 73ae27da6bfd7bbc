/-
# Every configuration is well-formed

A client of the library has constructors, the steps that extend a configuration, and decoders, and
may use what one of them returns in any other. `Obtained` is what it can have in hand after any
number of these, and `WellFormed` says what then holds at every depth of a configuration: which
lists have elements, which texts are names, and which values go with which comparison.

The types allow more. A column, a literal or a list may stand on its own in any form, and only the
node that takes it looks at it. So the proof goes through `Built`, which keeps what a node was made
of, and reads off what its constructor has asked for.

From there it follows that the renderer always finds the two bounds of a range, and that two faults
that the check of a whole configuration looks for are never found.
-/

import RuleQuery.Proofs.Name
import RuleQuery.Proofs.WellFormed.Decoding
import RuleQuery.Sql.Compile

namespace RuleQuery

open Sql (Piece)

/-! ## What can be obtained -/

/-- The nodes that a client can have in hand. -/
inductive Part
  | argument (value : Argument)
  | call (value : Call)
  | field (value : Field)
  | operand (value : Operand)
  | condition (value : Condition)
  | predicate (value : Predicate)
  | group (value : Group)
  | whereClause (value : WhereClause)
  | table (value : TableRef)
  | join (value : Join)
  | selected (value : Selected)
  | selectField (value : SelectField)
  | select (value : Select)
  | configuration (value : Configuration)

namespace Part

/-- A node is what its decoder gives for a document. -/
def DecodedFrom (v : Json) : Part → Prop
  | .argument a => Argument.decode v = .ok a
  | .call c => Call.decode v = .ok c
  | .field f => Field.decode v = .ok f
  | .operand value => Operand.decode v = .ok value
  | .condition c => Condition.decode v = .ok c
  | .predicate p => Predicate.decode v = .ok p
  | .group g => Group.decode v = .ok g
  | .whereClause w => WhereClause.decode v = .ok w
  | .table t => TableRef.decode v = .ok t
  | .join j => Join.decode v = .ok j
  | .selected s => Selected.decode v = .ok s
  | .selectField f => SelectField.decode v = .ok f
  | .select s => Select.decode v = .ok s
  | .configuration c => Configuration.decode v = .ok c

/-- A node could have been built by constructors alone. -/
def Built : Part → Prop
  | .argument a => a.Built
  | .call c => c.Built
  | .field f => f.Built
  | .operand value => value.Built
  | .condition c => c.Built
  | .predicate p => p.Built
  | .group g => g.Built
  | .whereClause w => w.Built
  | .table t => t.Built
  | .join j => j.Built
  | .selected s => s.Built
  | .selectField f => f.Built
  | .select s => s.Built
  | .configuration c => c.Built

end Part

/--
What a client can obtain: a constructor applied to what it has, a configuration with one more step,
or what a decoder gives for any document.
-/
inductive Obtained : Part → Prop
  | decoded {p : Part} {v : Json} (given : p.DecodedFrom v) : Obtained p
  | literal (value : Literal) : Obtained (.argument (.literal value))
  | column (name : String) : Obtained (.argument (.column name))
  | callArgument {c : Call} (hc : Obtained (.call c)) : Obtained (.argument c.toArgument)
  | call {function : String} {args : List Argument} {c : Call}
      (parts : ∀ a ∈ args, Obtained (.argument a)) (made : Call.make function args = .ok c) :
      Obtained (.call c)
  | columnField (name : String) : Obtained (.field (.column name))
  | callField {c : Call} (hc : Obtained (.call c)) : Obtained (.field (.call c))
  | absent : Obtained (.operand .absent)
  | scalar (value : Literal) : Obtained (.operand (.scalar value))
  | list (items : List Literal) : Obtained (.operand (.list items))
  | callOperand {c : Call} (hc : Obtained (.call c)) : Obtained (.operand (.call c))
  | condition {field : Field} {op : Comparison} {value : Operand} {c : Condition}
      (hf : Obtained (.field field)) (hv : Obtained (.operand value))
      (made : Condition.make field op value = .ok c) : Obtained (.condition c)
  | single {c : Condition} (hc : Obtained (.condition c)) : Obtained (.predicate (.condition c))
  | nested {g : Group} (hg : Obtained (.group g)) : Obtained (.predicate g.toPredicate)
  | group {members : List Predicate} {connective : Option Connective} {g : Group}
      (parts : ∀ p ∈ members, Obtained (.predicate p))
      (made : Group.make members connective = .ok g) : Obtained (.group g)
  | whereClause {members : List Predicate} (parts : ∀ p ∈ members, Obtained (.predicate p)) :
      Obtained (.whereClause ⟨members⟩)
  | table {name : String} {aliasName : Option String} {t : TableRef}
      (made : TableRef.make name aliasName = .ok t) : Obtained (.table t)
  | join {kind : JoinKind} {table : String} {aliasName : Option String} {condition : String}
      {j : Join} (made : Join.make kind table aliasName condition = .ok j) : Obtained (.join j)
  | useAs {j : Join} (hj : Obtained (.join j)) (useAs : Bool) : Obtained (.join { j with useAs })
  | raw (text : String) : Obtained (.selected (.raw text))
  | callSelected {c : Call} (hc : Obtained (.call c)) : Obtained (.selected (.call c))
  | selectField {expression : Selected} {aliasName : Option String} {f : SelectField}
      (hs : Obtained (.selected expression))
      (made : SelectField.make expression aliasName = .ok f) :
      Obtained (.selectField f)
  | select {fields : List SelectField} {s : Select}
      (parts : ∀ f ∈ fields, Obtained (.selectField f)) (made : Select.make fields = .ok s) :
      Obtained (.select s)
  | columns {names : List String} {s : Select} (made : Select.columns names = .ok s) :
      Obtained (.select s)
  | start {select : Select} {table : TableRef} (hs : Obtained (.select select))
      (ht : Obtained (.table table)) : Obtained (.configuration (.start select table))
  | withJoins {c : Configuration} {joins : List Join} (hc : Obtained (.configuration c))
      (hj : ∀ j ∈ joins, Obtained (.join j)) : Obtained (.configuration (c.withJoins joins))
  | withConditions {c : Configuration} {conditions : WhereClause}
      (hc : Obtained (.configuration c)) (hw : Obtained (.whereClause conditions)) :
      Obtained (.configuration (c.withConditions conditions))
  | withWhere {c : Configuration} {p : Predicate} (hc : Obtained (.configuration c))
      (hp : Obtained (.predicate p)) : Obtained (.configuration (c.withWhere p))
  | withGroupBy {c : Configuration} (hc : Obtained (.configuration c)) (entries : List String) :
      Obtained (.configuration (c.withGroupBy entries))
  | withHaving {c : Configuration} {condition : Condition} (hc : Obtained (.configuration c))
      (hh : Obtained (.condition condition)) :
      Obtained (.configuration (c.withHaving condition))
  | withOrderBy {c : Configuration} (hc : Obtained (.configuration c)) (entries : List String) :
      Obtained (.configuration (c.withOrderBy entries))
  | withParameter {c : Configuration} (hc : Obtained (.configuration c)) (name : String)
      (p : Parameter) : Obtained (.configuration (c.withParameter name p))

/-- What a decoder gives could have been built. -/
theorem Part.DecodedFrom.built {p : Part} {v : Json} (given : p.DecodedFrom v) : p.Built := by
  cases p with
  | argument => exact Argument.gives_decode v _ given
  | call => exact Call.gives_decode v _ given
  | field => exact Field.gives_decode v _ given
  | operand => exact Operand.gives_decode v _ given
  | condition => exact Condition.gives_decode v _ given
  | predicate => exact Predicate.gives_decode v _ given
  | group => exact Group.gives_decode v _ given
  | whereClause => exact WhereClause.gives_decode v _ given
  | table => exact TableRef.gives_decode v _ given
  | join => exact Join.gives_decode v _ given
  | selected => exact Selected.gives_decode v _ given
  | selectField => exact SelectField.gives_decode v _ given
  | select => exact Select.gives_decode v _ given
  | configuration => exact Configuration.gives_decode v _ given

/-- Raw fields without aliases are made one by one. -/
theorem SelectField.built_of_mapM {names : List String} {fields : List SelectField}
    (made : names.mapM (fun name => make (.raw name) none) = .ok fields) :
    ∀ f ∈ fields, f.Built := by
  induction names generalizing fields with
  | nil =>
      cases made
      exact nofun
  | cons name names ih =>
      rw [List.mapM_cons] at made
      cases first : make (.raw name) none with
      | error cause => simp [first, bind, Except.bind] at made
      | ok f =>
          cases rest : names.mapM (fun name => make (.raw name) none) with
          | error cause => simp [first, rest, bind, Except.bind] at made
          | ok fs =>
              rw [first, rest] at made
              cases made
              exact List.forall_mem_cons.mpr ⟨⟨.raw name, none, .raw name, first⟩, ih rest⟩

theorem Select.built_of_columns {names : List String} {s : Select}
    (made : columns names = .ok s) : s.Built := by
  unfold columns at made
  cases fields : names.mapM (fun name => SelectField.make (.raw name) none) with
  | error cause => simp [fields, bind, Except.bind] at made
  | ok fs =>
      rw [fields] at made
      exact ⟨fs, SelectField.built_of_mapM fields, made⟩

/-- Whatever the sequence of steps, constructors alone could have done it. -/
theorem Obtained.built {p : Part} (obtained : Obtained p) : p.Built := by
  induction obtained with
  | decoded given => exact given.built
  | literal value => exact .literal value
  | column name => exact .column name
  | callArgument _ ih => exact Call.Built.argument ih
  | call _ made ih => exact ⟨_, _, ih, made⟩
  | columnField name => exact .column name
  | callField _ ih => exact .call ih
  | absent => exact .absent
  | scalar value => exact .scalar value
  | list items => exact .list items
  | callOperand _ ih => exact .call ih
  | condition _ _ made field value => exact ⟨_, _, _, field, value, made⟩
  | single _ ih => exact .condition ih
  | nested _ ih => exact Group.Built.predicate ih
  | group _ made ih => exact ⟨_, _, ih, made⟩
  | whereClause _ ih => exact ih
  | table made => exact ⟨_, _, made⟩
  | join made => exact ⟨_, _, _, _, _, true, made, by rw [(Join.of_make made).1]⟩
  | useAs _ useAs ih =>
      obtain ⟨kind, table, aliasName, condition, made, _, making, rfl⟩ := ih
      exact ⟨kind, table, aliasName, condition, made, useAs, making, rfl⟩
  | raw text => exact .raw text
  | callSelected _ ih => exact .call ih
  | selectField _ made ih => exact ⟨_, _, ih, made⟩
  | select _ made ih => exact ⟨_, ih, made⟩
  | columns made => exact Select.built_of_columns made
  | start _ _ select table => exact .start select table
  | withJoins _ _ c joins => exact .joins c joins
  | withConditions _ _ c conditions => exact .conditions c conditions
  | withWhere _ _ c p => exact .predicate c p
  | withGroupBy _ entries ih => exact .groupBy ih entries
  | withHaving _ _ c condition => exact .having c condition
  | withOrderBy _ entries ih => exact .orderBy ih entries
  | withParameter _ name p ih => exact .parameter ih name p

/-! ## What is well-formed -/

/-- Columns are column references, functions are identifiers, and no function lacks arguments. -/
inductive Argument.WellFormed : Argument → Prop
  | literal (value : Literal) : Argument.WellFormed (.literal value)
  | column {name : String} (reference : Name.isColumnReference name = true) :
      Argument.WellFormed (.column name)
  | call {function : String} {args : List Argument}
      (identifier : Name.isIdentifier function = true) (nonempty : args ≠ [])
      (parts : ∀ a ∈ args, Argument.WellFormed a) : Argument.WellFormed (.call function args)

def Call.WellFormed (c : Call) : Prop := c.toArgument.WellFormed

/-- A plain field is a dotted name. -/
inductive Field.WellFormed : Field → Prop
  | column {name : String} (dotted : Name.isDotted name = true) : Field.WellFormed (.column name)
  | call {c : Call} (wellFormed : c.WellFormed) : Field.WellFormed (.call c)

structure Condition.WellFormed (c : Condition) : Prop where
  field : c.field.WellFormed
  suits : c.value.Suits c.op
  notNull : c.value ≠ .scalar .null
  call : ∀ call, c.value = .call call → call.WellFormed

inductive Predicate.WellFormed : Predicate → Prop
  | condition {c : Condition} (wellFormed : c.WellFormed) : Predicate.WellFormed (.condition c)
  | group {connective : Connective} {members : List Predicate} (nonempty : members ≠ [])
      (parts : ∀ p ∈ members, Predicate.WellFormed p) :
      Predicate.WellFormed (.group connective members)

structure TableRef.WellFormed (t : TableRef) : Prop where
  dotted : Name.isDotted t.name = true
  aliasName : ∀ name ∈ t.aliasName, Name.isIdentifier name = true

structure Join.WellFormed (j : Join) : Prop where
  dotted : Name.isDotted j.table = true
  aliasName : ∀ name ∈ j.aliasName, Name.isIdentifier name = true
  condition : Text.isBlankText j.condition = false

structure SelectField.WellFormed (f : SelectField) : Prop where
  raw : ∀ text, f.expression = .raw text → Text.isBlankText text = false
  call : ∀ call, f.expression = .call call → call.WellFormed
  aliasName : ∀ name ∈ f.aliasName, Name.isIdentifier name = true

structure Configuration.WellFormed (c : Configuration) : Prop where
  nonempty : c.select.fields ≠ []
  fields : ∀ f ∈ c.select.fields, f.WellFormed
  table : c.table.WellFormed
  joins : ∀ j ∈ c.joins, j.WellFormed
  conditions : ∀ p ∈ c.conditions.members, p.WellFormed
  having : ∀ condition ∈ c.having, condition.WellFormed

/-! ## What is built is well-formed -/

/-- An argument is well-formed in a call, where its column has been checked. -/
theorem Argument.Built.wellFormed {a : Argument} (built : a.Built) :
    (∀ name, a = .column name → Name.isColumnReference name = true) → a.WellFormed := by
  induction built with
  | literal l => exact fun _ => .literal l
  | column name => exact fun checked => .column (checked name rfl)
  | call _ made ih =>
      intro _
      obtain ⟨rfl, identifier, nonempty, columns⟩ := Call.of_make made
      refine .call identifier nonempty fun a mem => ih a mem ?_
      rintro name rfl
      exact Call.isColumnReference_of_badColumn? columns mem

theorem Call.Built.wellFormed {c : Call} (built : c.Built) : c.WellFormed :=
  built.argument.wellFormed fun _ column => by cases column

theorem Condition.Built.wellFormed {c : Condition} (built : c.Built) : c.WellFormed := by
  obtain ⟨field, op, value, fieldBuilt, valueBuilt, made⟩ := built
  obtain ⟨rfl, checked, suited⟩ := Condition.of_make made
  refine ⟨?_, Operand.suits_of_check suited, value.normal_ne_null, ?_⟩
  · cases fieldBuilt with
    | column name => exact .column (Field.isDotted_of_check checked)
    | call built => exact .call built.wellFormed
  · intro call same
    have normal : value.normal.Built := valueBuilt.normal
    rw [show value.normal = .call call from same] at normal
    cases normal with
    | call built => exact built.wellFormed

theorem Predicate.Built.wellFormed {p : Predicate} (built : p.Built) : p.WellFormed := by
  induction built with
  | condition built => exact .condition built.wellFormed
  | @group members connective g _ made ih =>
      obtain ⟨same, nonempty⟩ := Group.of_make made
      rw [Group.toPredicate, same]
      exact .group nonempty ih

/-- An alias that passes its check is an identifier, if it is there. -/
theorem isIdentifier_of_mem_checkAlias {aliasName : Option String}
    (checked : checkAlias aliasName = .ok ()) :
    ∀ name ∈ aliasName, Name.isIdentifier name = true := by
  rintro name rfl
  exact isIdentifier_of_checkAlias checked

theorem TableRef.Built.wellFormed {t : TableRef} (built : t.Built) : t.WellFormed := by
  obtain ⟨name, aliasName, made⟩ := built
  obtain ⟨rfl, named, checked⟩ := TableRef.of_make made
  exact ⟨isDotted_of_checkTableName named, isIdentifier_of_mem_checkAlias checked⟩

theorem Join.Built.wellFormed {j : Join} (built : j.Built) : j.WellFormed := by
  obtain ⟨kind, table, aliasName, condition, made, useAs, making, rfl⟩ := built
  obtain ⟨rfl, named, checked, shown⟩ := Join.of_make making
  exact ⟨isDotted_of_checkTableName named, isIdentifier_of_mem_checkAlias checked, shown⟩

/-- A raw field that is made is not blank. -/
theorem SelectField.not_blank_of_make {text : String} {aliasName : Option String}
    {f : SelectField} (made : make (.raw text) aliasName = .ok f) :
    Text.isBlankText text = false := by
  simp only [make] at made
  split at made
  · cases made
  next shown => exact Bool.eq_false_iff.mpr shown

theorem SelectField.Built.wellFormed {f : SelectField} (built : f.Built) : f.WellFormed := by
  obtain ⟨expression, aliasName, selected, made⟩ := built
  obtain ⟨rfl, checked⟩ := SelectField.of_make made
  refine ⟨?_, ?_, isIdentifier_of_mem_checkAlias checked⟩
  · rintro text rfl
    exact not_blank_of_make made
  · rintro call rfl
    cases selected with
    | call built => exact built.wellFormed

theorem Configuration.Parts.wellFormed {c : Configuration} (parts : c.Parts) : c.WellFormed := by
  obtain ⟨fields, built, made⟩ := parts.select
  obtain ⟨same, nonempty⟩ := Select.of_make made
  refine ⟨?_, ?_, parts.table.wellFormed, fun j mem => (parts.joins j mem).wellFormed,
    fun p mem => (parts.conditions p mem).wellFormed,
    fun condition mem => (parts.having condition mem).wellFormed⟩
  · rwa [same]
  · rw [same]
    exact fun f mem => (built f mem).wellFormed

/-! ## What follows for rendering and checking -/

/-- The bounds of a range are always there to be rendered. -/
theorem Condition.WellFormed.template_between {c : Condition} (wellFormed : c.WellFormed)
    (between : c.op = .between) :
    ∃ low high, c.template =
      c.field.template ++ [.text " BETWEEN ", .slot low, .text " AND ", .slot high] := by
  have suits := wellFormed.suits
  rw [between] at suits
  obtain ⟨low, high, bounds, _⟩ := suits
  refine ⟨low, high, ?_⟩
  obtain ⟨field, op, value⟩ := c
  subst between bounds
  rfl

/-- The conditions in a well-formed predicate are well-formed. -/
theorem Predicate.WellFormed.conditions {p : Predicate} (wellFormed : p.WellFormed) :
    ∀ c ∈ p.conditions, c.WellFormed := by
  induction wellFormed with
  | condition wellFormed =>
      intro c mem
      rw [Predicate.conditions, List.mem_singleton] at mem
      rwa [mem]
  | group _ _ ih =>
      intro c mem
      rw [Predicate.conditions, mem_conditionsOf] at mem
      obtain ⟨p, member, inside⟩ := mem
      exact ih p member c inside

/-- A name is not blank: what it starts with is not. -/
theorem Name.not_blank_of_isDotted {s : String} (dotted : isDotted s = true) :
    Text.isBlankText s = false := by
  unfold isDotted at dotted
  cases chars : s.toList with
  | nil => simp [chars, isDottedChars] at dotted
  | cons d cs =>
      simp only [chars, isDottedChars, Bool.and_eq_true] at dotted
      have shown : Text.isBlank d = false := by
        rcases Bool.or_eq_true _ _ |>.mp dotted.1 with letter | underscore
        · have range := isAlpha_iff_toNat.mp letter
          simp [Text.isBlank]
          omega
        · rw [beq_iff_eq.mp underscore]
          decide
      simp [Text.isBlankText, chars, shown]

namespace Configuration

variable {c : Configuration}

/-- The select list and the table of a well-formed configuration are never at fault. -/
theorem WellFormed.clauseFault?_eq (wellFormed : c.WellFormed) :
    c.clauseFault? =
      if c.groupBy.any Text.isBlankText then some .blankGrouping
      else if c.orderBy.any Text.isBlankText then some .blankOrdering
      else (c.conditions.conditions.findSome? Condition.aggregateField?).map fun call =>
        .aggregateInWhere call.function := by
  have select : c.select.fields.isEmpty = false := by simpa using wellFormed.nonempty
  have table : Text.isBlankText c.table.name = false :=
    Name.not_blank_of_isDotted wellFormed.table.dotted
  rw [clauseFault?, select, table, if_neg (by simp), if_neg (by simp)]

/-- The faults that the clauses of a well-formed configuration can have. -/
theorem WellFormed.of_clauseFault? (wellFormed : c.WellFormed) {cause : Defect}
    (found : c.clauseFault? = some cause) :
    cause = .blankGrouping ∨ cause = .blankOrdering ∨
      ∃ function, cause = .aggregateInWhere function := by
  rw [wellFormed.clauseFault?_eq] at found
  split at found
  · exact .inl (Option.some.inj found).symm
  · split at found
    · exact .inr (.inl (Option.some.inj found).symm)
    · obtain ⟨call, _, same⟩ := Option.map_eq_some_iff.mp found
      exact .inr (.inr ⟨call.function, same.symm⟩)

/-- Only the clauses have structural faults. -/
theorem clauseFault?_of_validate {cause : Defect}
    (found : c.validate = .error (.structural cause)) : c.clauseFault? = some cause := by
  unfold validate at found
  split at found
  next fault faulty =>
    cases found
    exact faulty
  next => split at found <;> cases found

/-- Neither an empty select list nor an empty table is ever found. -/
theorem WellFormed.validate_ne (wellFormed : c.WellFormed) :
    c.validate ≠ .error (.structural .noSelectFields) ∧
      c.validate ≠ .error (.structural .noMainTable) := by
  constructor <;> intro found <;>
    rcases wellFormed.of_clauseFault? (clauseFault?_of_validate found) with
      same | same | ⟨_, same⟩ <;> cases same

end Configuration

/--
Whatever sequence of constructors, steps and decoders a configuration comes from, it is well-formed
at every depth. So every range in it is rendered with its two bounds, and its check finds neither an
empty select list nor an empty table.
-/
theorem Configuration.wellFormed_of_obtained {c : Configuration}
    (obtained : Obtained (.configuration c)) :
    c.WellFormed ∧
      (∀ condition ∈ c.conditions.conditions ++ c.having, condition.op = .between →
        ∃ low high, condition.template =
          condition.field.template ++ [.text " BETWEEN ", .slot low, .text " AND ", .slot high]) ∧
      c.validate ≠ .error (.structural .noSelectFields) ∧
      c.validate ≠ .error (.structural .noMainTable) := by
  have built : c.Built := obtained.built
  have wellFormed := built.parts.wellFormed
  refine ⟨wellFormed, fun condition mem between => ?_, wellFormed.validate_ne⟩
  suffices inside : condition.WellFormed from inside.template_between between
  rcases List.mem_append.mp mem with mem | mem
  · rw [WhereClause.conditions, Predicate.mem_conditionsOf] at mem
    obtain ⟨p, member, inside⟩ := mem
    exact (wellFormed.conditions p member).conditions condition inside
  · exact wellFormed.having condition mem

/-- The document of a range of days. -/
def yearDocument : Json :=
  .object [("field", .string "day"), ("operator", .string "between"),
    ("value", .array [.string "2024-01-01", .string "2024-12-31"])]

/-- The kinds of payment that came to more than 100 in a year. -/
def largeKinds : Configuration :=
  ((Configuration.start ⟨[⟨.raw "kind", none⟩]⟩ ⟨"payments", none⟩).withWhere
    (.condition ⟨.column "day", .between, .list [.string "2024-01-01", .string "2024-12-31"]⟩)
    ).withHaving ⟨.call ⟨"SUM", [.column "amount"]⟩, .greater, .scalar (.int 100)⟩

/-- The range is decoded, and all the rest is constructed. -/
theorem obtained_largeKinds : Obtained (.configuration largeKinds) := by
  have year : Obtained (.condition
      ⟨.column "day", .between, .list [.string "2024-01-01", .string "2024-12-31"]⟩) :=
    .decoded (v := yearDocument) rfl
  have amount : ∀ a ∈ [Argument.column "amount"], Obtained (.argument a) := by
    simpa using .column "amount"
  have total : Obtained (.call ⟨"SUM", [.column "amount"]⟩) :=
    .call amount (show Call.make "SUM" _ = .ok _ from rfl)
  have large : Obtained (.condition
      ⟨.call ⟨"SUM", [.column "amount"]⟩, .greater, .scalar (.int 100)⟩) :=
    .condition (.callField total) (.scalar (.int 100))
      (show Condition.make _ .greater _ = .ok _ from rfl)
  have kinds : Obtained (.select ⟨[⟨.raw "kind", none⟩]⟩) :=
    .columns (show Select.columns ["kind"] = .ok _ from rfl)
  have payments : Obtained (.table ⟨"payments", none⟩) :=
    .table (show TableRef.make "payments" none = .ok _ from rfl)
  exact .withHaving (.withWhere (.start kinds payments) (.single year)) large

theorem wellFormed_largeKinds :
    Obtained (.configuration largeKinds) ∧ largeKinds.WellFormed ∧
      (∀ condition ∈ largeKinds.conditions.conditions ++ largeKinds.having,
        condition.op = .between → ∃ low high, condition.template =
          condition.field.template ++ [.text " BETWEEN ", .slot low, .text " AND ", .slot high]) ∧
      largeKinds.validate ≠ .error (.structural .noSelectFields) ∧
      largeKinds.validate ≠ .error (.structural .noMainTable) :=
  ⟨obtained_largeKinds, Configuration.wellFormed_of_obtained obtained_largeKinds⟩

end RuleQuery
