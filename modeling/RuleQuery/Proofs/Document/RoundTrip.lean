/-
# Nothing is lost in a document

A configuration whose literals a document can hold is read back as the same configuration, and so is
each of the nodes it consists of. What a document cannot hold is a number that is not finite, the
part of a second of a timestamp, and a default that its parameter reads differently: NULL, which
counts as no default, and a text where the parameter does not hold texts.

Two types of nodes are freer alone than in the places where they stand. A column may be any text
until a call takes it as an argument, and a value may be a single NULL until a condition takes it. A
document has no form for either: such a column is written as a text, and such a NULL as no value.
Each of these nodes is read back in its normal form, and that is the node itself except in these two
cases.
-/

import RuleQuery.Proofs.Document.ReadBack

namespace RuleQuery

/-- Read a document that stands on its own. -/
def readDocument {α : Type} (decode : Json → Decoded α) (v : Json) : Except RuleError α :=
  (decode v).located documentRoot

/-- Literals that a document holds completely. -/
def Storable (literals : List Literal) : Prop := ∀ l ∈ literals, l.IsStorable

theorem Storable.finite {literals : List Literal} (storable : Storable literals) :
    ∀ l ∈ literals, l.IsFinite :=
  fun l mem => (storable l mem).1

theorem Storable.fixed {literals : List Literal} (storable : Storable literals) :
    ∀ l ∈ literals, l.restored = l :=
  fun l mem => Literal.restored_of_isStorable (storable l mem)

/-- A default that the parameter reads as it is: not NULL, and a text only where texts are held. -/
def Parameter.KeepsDefault (p : Parameter) : Prop :=
  ∀ l, p.default = some l →
    l.IsStorable ∧ l ≠ .null ∧ (p.kind.isTextual = false → ∀ s, l ≠ .string s)

namespace Parameter

theorem rereadDefault_of_keepsDefault {p : Parameter} (keeps : p.KeepsDefault) :
    p.rereadDefault = .ok p.default := by
  cases given : p.default with
  | none => rw [rereadDefault, given]
  | some l =>
      obtain ⟨storable, present, text⟩ := keeps l given
      have same := Literal.restored_of_isStorable storable
      have read : reread p.kind l = .ok l := by
        cases l with
        | string s =>
            cases textual : p.kind.isTextual with
            | true => rw [reread, if_pos textual]
            | false => exact absurd rfl (text textual s)
        | _ => rw [reread_of_not_string p.kind (by rintro _ ⟨⟩), same]
      rw [rereadDefault_of_present given present, read]
      rfl

theorem KeepsDefault.reloaded {p : Parameter} (keeps : p.KeepsDefault) : p.reloaded = p := by
  rw [Parameter.reloaded, rereadDefault_of_keepsDefault keeps]

theorem KeepsDefault.finite {p : Parameter} (keeps : p.KeepsDefault) :
    ∀ l, p.default = some l → l.IsFinite :=
  fun l given => (keeps l given).1.1

theorem KeepsDefault.decode_encode {p : Parameter} (keeps : p.KeepsDefault) :
    decode p.encode = .ok p := by
  rw [Parameter.decode_encode keeps.finite, rereadDefault_of_keepsDefault keeps]
  rfl

end Parameter

/-- Declarations that keep their defaults are read back. -/
theorem Declarations.decode_encode {declared : Declarations}
    (keeps : ∀ e ∈ declared.entries, e.2.KeepsDefault) :
    decode (encode declared) = .ok declared := by
  have rereads : ∀ e ∈ declared.entries, e.2.Rereads := fun e mem =>
    ⟨_, Parameter.rereadDefault_of_keepsDefault (keeps e mem)⟩
  have same : declared.mapValues Parameter.reloaded = declared := by
    apply NameMap.ext
    apply map_of_fixed
    rintro ⟨name, p⟩ mem
    rw [(keeps (name, p) mem).reloaded]
  rw [decode_encode_of_rereads (fun e mem => (keeps e mem).finite) rereads, same]

/-- A configuration is read back. -/
theorem Configuration.Built.decode_encode {c : Configuration} (built : c.Built)
    (storable : Storable c.statementLiterals)
    (keeps : ∀ e ∈ c.parameters.entries, e.2.KeepsDefault) : decode c.encode = .ok c := by
  rw [Configuration.decode_encode built.parts storable.finite, Declarations.decode_encode keeps,
    mapLiterals_of_fixed storable.fixed]
  rfl

namespace Argument

/-- A column that no call accepts is as good as a text. -/
def normal : Argument → Argument
  | .column name =>
    if Name.isColumnReference name then .column name else .literal (.string name)
  | a => a

theorem normal_eq_self_iff (a : Argument) :
    a.normal = a ↔ ∀ name, a = .column name → Name.isColumnReference name = true := by
  cases a with
  | literal l => simp [normal]
  | column name =>
      by_cases accepted : Name.isColumnReference name = true <;> simp [normal, accepted]
  | call function args => simp [normal]

/-- A column that no call accepts is read back as a text, since nothing marks it as a column. -/
theorem decode_encode_column {name : String} (bad : Name.isColumnReference name = false) :
    decode (encode (.column name)) = .ok (.literal (.string name)) := by
  rw [encode, decode, if_neg (by simp [bad])]

/-- An argument is read back in its normal form. -/
theorem Built.decode_encode_normal {a : Argument} (built : a.Built)
    (storable : Storable a.literals) : decode a.encode = .ok a.normal := by
  by_cases accepted : ∀ name, a = .column name → Name.isColumnReference name = true
  · rw [built.decode_encode storable.finite accepted, mapLiterals_of_fixed a storable.fixed,
      (normal_eq_self_iff a).mpr accepted]
  · obtain ⟨name, stray⟩ := not_forall.mp accepted
    obtain ⟨rfl, bad⟩ := Classical.not_imp.mp stray
    rw [decode_encode_column (Bool.eq_false_iff.mpr bad), normal, if_neg bad]

end Argument

namespace Operand

theorem normal_eq_self_iff (v : Operand) : v.normal = v ↔ v ≠ .scalar .null := by
  constructor
  · intro same
    rw [← same]
    exact v.normal_ne_null
  · intro present
    unfold normal
    split
    · exact absurd rfl present
    · rfl

/-- A value is read back in its normal form. -/
theorem Built.decode_encode_normal {v : Operand} (built : v.Built)
    (storable : Storable v.allLiterals) : decode v.encode = .ok v.normal := by
  rw [built.decode_encode storable.finite, ← normal_mapLiterals Literal.kind_restored,
    mapLiterals_of_fixed storable.fixed]

end Operand

/-- Every configuration that can be stored, and every node of one, is read back as it was. An
argument or a value that stands alone is read back in its normal form, which differs from it only
where it is a column that no call accepts or a single NULL. -/
theorem readDocument_encode :
    (∀ c : Configuration, c.Built → Storable c.statementLiterals →
      (∀ e ∈ c.parameters.entries, e.2.KeepsDefault) →
        Configuration.ofDocument c.encode = .ok c) ∧
    (∀ l : Literal, l.IsStorable → readDocument Literal.decode l.encode = .ok l) ∧
    (∀ a : Argument, a.Built → Storable a.literals →
      readDocument Argument.decode a.encode = .ok a.normal ∧
        (a.normal = a ↔ ∀ name, a = .column name → Name.isColumnReference name = true)) ∧
    (∀ c : Call, c.Built → Storable c.literals → readDocument Call.decode c.encode = .ok c) ∧
    (∀ v : Operand, v.Built → Storable v.allLiterals →
      readDocument Operand.decode v.encode = .ok v.normal ∧
        (v.normal = v ↔ v ≠ .scalar .null)) ∧
    (∀ c : Condition, c.Built → Storable c.literals →
      readDocument Condition.decode c.encode = .ok c) ∧
    (∀ g : Group, g.Built → Storable g.literals → readDocument Group.decode g.encode = .ok g) ∧
    (∀ p : Predicate, p.Built → Storable p.literals →
      readDocument Predicate.decode p.encode = .ok p) ∧
    (∀ w : WhereClause, w.Built → Storable w.literals →
      readDocument WhereClause.decode w.encode = .ok w) ∧
    (∀ t : TableRef, t.Built → readDocument TableRef.decode t.encode = .ok t) ∧
    (∀ j : Join, j.Built → readDocument Join.decode j.encode = .ok j) ∧
    (∀ field : SelectField, field.Built → Storable field.literals →
      readDocument SelectField.decode field.encode = .ok field) ∧
    (∀ s : Select, s.Built → Storable s.literals →
      readDocument Select.decode s.encode = .ok s) ∧
    (∀ p : Parameter, p.KeepsDefault → readDocument Parameter.decode p.encode = .ok p) := by
  have atRoot {α : Type} {decode : Json → Decoded α} {v : Json} {a : α} (read : decode v = .ok a) :
      readDocument decode v = .ok a := by
    rw [readDocument, read]
    rfl
  refine ⟨?_, ?_, ?_, ?_, ?_, ?_, ?_, ?_, ?_, ?_, ?_, ?_, ?_, ?_⟩
  · intro c built storable keeps
    exact atRoot (built.decode_encode storable keeps)
  · intro l storable
    apply atRoot
    rw [Literal.decode_encode storable.1, Literal.restored_of_isStorable storable]
  · intro a built storable
    exact ⟨atRoot (built.decode_encode_normal storable), a.normal_eq_self_iff⟩
  · intro c built storable
    apply atRoot
    rw [built.decode_encode storable.finite, Call.mapLiterals_of_fixed storable.fixed]
  · intro v built storable
    exact ⟨atRoot (built.decode_encode_normal storable), v.normal_eq_self_iff⟩
  · intro c built storable
    apply atRoot
    rw [built.decode_encode storable.finite, Condition.mapLiterals_of_fixed storable.fixed]
  · intro g built storable
    apply atRoot
    rw [built.decode_encode storable.finite, Group.mapLiterals_of_fixed storable.fixed]
  · intro p built storable
    apply atRoot
    rw [built.decode_encode storable.finite, Predicate.mapLiterals_of_fixed storable.fixed]
  · intro w built storable
    apply atRoot
    rw [built.decode_encode storable.finite, WhereClause.mapLiterals_of_fixed storable.fixed]
  · intro t built
    exact atRoot built.decode_encode
  · intro j built
    exact atRoot built.decode_encode
  · intro field built storable
    apply atRoot
    rw [built.decode_encode storable.finite, SelectField.mapLiterals_of_fixed storable.fixed]
  · intro s built storable
    apply atRoot
    rw [built.decode_encode storable.finite, Select.mapLiterals_of_fixed storable.fixed]
  · intro p keeps
    exact atRoot keeps.decode_encode

/-- A column of two words alone, and a NULL alone, are read back as something else. -/
theorem loneNodes_not_kept :
    (Argument.Built (.column "a b") ∧ Storable (Argument.column "a b").literals ∧
      readDocument Argument.decode (Argument.column "a b").encode =
        .ok (.literal (.string "a b")) ∧
      readDocument Argument.decode (Argument.column "a b").encode ≠ .ok (.column "a b")) ∧
    Operand.Built (.scalar .null) ∧ Storable (Operand.scalar .null).allLiterals ∧
      readDocument Operand.decode (Operand.scalar .null).encode = .ok .absent ∧
      readDocument Operand.decode (Operand.scalar .null).encode ≠ .ok (.scalar .null) := by
  have column : readDocument Argument.decode (Argument.column "a b").encode =
      .ok (.literal (.string "a b")) := by
    rw [readDocument, Argument.decode_encode_column (by decide)]
    rfl
  have null : readDocument Operand.decode (Operand.scalar .null).encode = .ok .absent := rfl
  refine ⟨⟨.column "a b", by simp [Storable, Argument.literals], column, ?_⟩,
    .scalar .null, ?_, null, ?_⟩
  · rw [column]
    nofun
  · intro l mem
    rw [List.mem_singleton.mp mem]
    exact .of_kind trivial (by decide)
  · rw [null]
    nofun

/-- The month in which a payment was booked. -/
def bookedMonth : Call :=
  ⟨"DATE_TRUNC", [.literal (.string "month"), .column "p.booked_at"]⟩

/-- The month is not over before a leap day. -/
def bookedSince : Condition :=
  ⟨.call bookedMonth, .greaterEqual, .scalar (.date ⟨2024, 2, 29, by decide⟩)⟩

/-- The payments of late months and those of accounts in one of two states. -/
def watched : Group :=
  ⟨.or, [.condition bookedSince,
    .condition ⟨.column "a.state", .isIn, .list [.string "open", .string (Name.placeholder "s")]⟩]⟩

/-- The months of the watched payments, with a state that may be chosen. -/
def watchedMonths : Configuration :=
  (((Configuration.start ⟨[⟨.call bookedMonth, some "month"⟩]⟩ ⟨"payments", some "p"⟩).withJoins
    [⟨.left, "accounts", some "a", "a.id = p.account", false⟩]).withWhere
      watched.toPredicate).withParameter "s" (.ofOptional .string (some (.string "frozen")))

theorem bookedMonth_built : bookedMonth.Built := by
  refine ⟨"DATE_TRUNC", [.literal (.string "month"), .column "p.booked_at"], ?_, rfl⟩
  intro a mem
  simp only [List.mem_cons, List.not_mem_nil, or_false] at mem
  rcases mem with rfl | rfl
  · exact .literal _
  · exact .column _

theorem bookedSince_built : bookedSince.Built :=
  ⟨.call bookedMonth, .greaterEqual, .scalar (.date ⟨2024, 2, 29, by decide⟩),
    .call bookedMonth_built, .scalar _, rfl⟩

theorem watched_built : watched.Built := by
  refine ⟨watched.members, some .or, ?_, rfl⟩
  intro p mem
  simp only [watched, List.mem_cons, List.not_mem_nil, or_false] at mem
  rcases mem with rfl | rfl
  · exact .condition bookedSince_built
  · exact .condition ⟨.column "a.state", .isIn, _, .column "a.state",
      .list [.string "open", .string (Name.placeholder "s")], rfl⟩

theorem watchedMonths_built : watchedMonths.Built := by
  have field : SelectField.Built ⟨.call bookedMonth, some "month"⟩ :=
    ⟨.call bookedMonth, some "month", .call bookedMonth_built, rfl⟩
  have select : Select.Built ⟨[⟨.call bookedMonth, some "month"⟩]⟩ := .single field
  have accounts : ∀ j ∈ [(⟨.left, "accounts", some "a", "a.id = p.account", false⟩ : Join)],
      j.Built := by
    intro j mem
    rw [List.mem_singleton.mp mem]
    exact ⟨.left, "accounts", some "a", "a.id = p.account", _, false, rfl, rfl⟩
  have where_ : watched.toPredicate.Built :=
    .ofMembers .or (by simp [watched]) fun p mem => by
      obtain ⟨members, connective, parts, made⟩ := watched_built
      rw [← (Group.of_make made).1] at parts
      exact parts p mem
  exact .parameter (.predicate (.joins (.start select ⟨"payments", some "p", rfl⟩) accounts) where_)
    "s" _

theorem watchedMonths_storable : Storable watchedMonths.statementLiterals := by
  have literals : watchedMonths.statementLiterals = [.string "month", .string "month",
      .date ⟨2024, 2, 29, by decide⟩, .string "open", .string (Name.placeholder "s")] := rfl
  intro l mem
  rw [literals] at mem
  simp only [List.mem_cons, List.not_mem_nil, or_false] at mem
  rcases mem with rfl | rfl | rfl | rfl | rfl <;> exact .of_kind trivial (by decide)

theorem watchedMonths_keepsDefault :
    ∀ e ∈ watchedMonths.parameters.entries, e.2.KeepsDefault := by
  have declared : watchedMonths.parameters.entries =
      [("s", .ofOptional .string (some (.string "frozen")))] := rfl
  intro e mem l given
  rw [declared] at mem
  rw [List.mem_singleton.mp mem] at given
  cases given
  rw [List.mem_singleton.mp mem]
  exact ⟨.of_kind trivial (by decide), nofun, nofun⟩

/-- A configuration with a node of every type is read back, and so are its nodes. -/
theorem readDocument_encode_watchedMonths :
    (watchedMonths.Built ∧ Storable watchedMonths.statementLiterals ∧
      (∀ e ∈ watchedMonths.parameters.entries, e.2.KeepsDefault) ∧
        Configuration.ofDocument watchedMonths.encode = .ok watchedMonths) ∧
    readDocument Literal.decode (Literal.string "month").encode = .ok (.string "month") ∧
    readDocument Argument.decode bookedMonth.toArgument.encode = .ok bookedMonth.toArgument ∧
    readDocument Call.decode bookedMonth.encode = .ok bookedMonth ∧
    readDocument Operand.decode bookedSince.value.encode = .ok bookedSince.value ∧
    readDocument Condition.decode bookedSince.encode = .ok bookedSince ∧
    readDocument Group.decode watched.encode = .ok watched ∧
    readDocument Predicate.decode watched.toPredicate.encode = .ok watched.toPredicate ∧
    readDocument WhereClause.decode watchedMonths.conditions.encode =
      .ok watchedMonths.conditions ∧
    readDocument TableRef.decode watchedMonths.table.encode = .ok watchedMonths.table ∧
    (∀ j ∈ watchedMonths.joins, readDocument Join.decode j.encode = .ok j) ∧
    (∀ f ∈ watchedMonths.select.fields, readDocument SelectField.decode f.encode = .ok f) ∧
    readDocument Select.decode watchedMonths.select.encode = .ok watchedMonths.select ∧
    ∀ e ∈ watchedMonths.parameters.entries, readDocument Parameter.decode e.2.encode = .ok e.2 := by
  obtain ⟨configuration, literal, argument, call, operand, condition, group, predicate, where_,
    table, join, field, select, parameter⟩ := readDocument_encode
  have parts := watchedMonths_built.parts
  have among {literals : List Literal} (sub : literals ⊆ watchedMonths.statementLiterals) :
      Storable literals :=
    fun l mem => watchedMonths_storable l (sub mem)
  have late : Argument.Built bookedMonth.toArgument := by
    obtain ⟨_, _, arguments, made⟩ := bookedMonth_built
    exact .call arguments made
  have fields : ∀ f ∈ watchedMonths.select.fields, f.Built := by
    obtain ⟨fields, built, made⟩ := parts.select
    rwa [(Select.of_make made).1]
  refine ⟨⟨watchedMonths_built, watchedMonths_storable, watchedMonths_keepsDefault,
    configuration _ watchedMonths_built watchedMonths_storable watchedMonths_keepsDefault⟩,
    ?_, ?_, ?_, ?_, ?_, ?_, ?_, ?_, ?_, ?_, ?_, ?_, ?_⟩
  · exact literal _ (watchedMonths_storable _ (by decide))
  · exact (argument _ late (among (by decide))).1
  · exact call _ bookedMonth_built (among (by decide))
  · exact (operand _ (.scalar _) (among (by decide))).1
  · exact condition _ bookedSince_built (among (by decide))
  · exact group _ watched_built (among (by decide))
  · exact predicate _ (parts.conditions _ (by decide)) (among (by decide))
  · exact where_ _ parts.conditions (among (by decide))
  · exact table _ parts.table
  · exact fun j mem => join j (parts.joins j mem)
  · intro f mem
    exact field f (fields f mem) (among fun l leaf =>
      List.mem_append_left _ (List.mem_append_left _ (List.mem_flatMap.mpr ⟨f, mem, leaf⟩)))
  · exact select _ parts.select (among (by decide))
  · exact fun e mem => parameter e.2 (watchedMonths_keepsDefault e mem)

end RuleQuery
