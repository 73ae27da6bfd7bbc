/-
# What the check of a configuration accepts

A configuration passes its check exactly if it has none of four faults, and if it has several, the
first of them in a fixed order is reported: a blank entry in GROUP BY or ORDER BY, an aggregate in a
field of WHERE, an alias that is used twice, a placeholder that is not declared although others are.
Each of the first two is a fault of structure, each of the last two a fault of reference, which
names the first alias or placeholder at fault.

Aggregates are looked for in the fields of WHERE only. The value of a condition may be a call as
well, and an aggregate in it passes the check.
-/

import RuleQuery.Proofs.Placeholders
import RuleQuery.Proofs.Validity.Occurrence
import RuleQuery.Proofs.WellFormed

namespace RuleQuery

/-! ## The first fault in a list -/

section FirstRepeat

variable {α : Type}

/-- The element repeats an earlier one, and is the first to do so. -/
def FirstRepeat (a : α) (as : List α) : Prop :=
  ∃ before after, as = before ++ a :: after ∧ before.Nodup ∧ a ∈ before

variable [DecidableEq α] {seen as : List α} {a : α}

theorem firstRepeat?_eq_none_iff :
    firstRepeat? seen as = none ↔ as.Nodup ∧ ∀ b ∈ as, b ∉ seen := by
  induction as generalizing seen with
  | nil => simp [firstRepeat?]
  | cons b as ih =>
      rw [firstRepeat?, List.nodup_cons, List.forall_mem_cons]
      split
      next known => simp [known]
      next new =>
        rw [ih]
        constructor
        · rintro ⟨distinct, fresh⟩
          refine ⟨⟨fun repeated => fresh b repeated List.mem_cons_self, distinct⟩, new, ?_⟩
          exact fun other mem known => fresh other mem (List.mem_cons_of_mem b known)
        · rintro ⟨⟨single, distinct⟩, _, fresh⟩
          refine ⟨distinct, fun other mem known => ?_⟩
          rcases List.mem_cons.mp known with rfl | known
          · exact single mem
          · exact fresh other mem known

/-- What comes before the element that is found is all different, and new. -/
theorem exists_of_firstRepeat? (found : firstRepeat? seen as = some a) :
    ∃ before after, as = before ++ a :: after ∧ before.Nodup ∧ (∀ b ∈ before, b ∉ seen) ∧
      (a ∈ seen ∨ a ∈ before) := by
  -- An element that is passed over counts as seen from then on.
  induction as generalizing seen with
  | nil => cases found
  | cons b as ih =>
      rw [firstRepeat?] at found
      split at found
      next known =>
        rw [← Option.some.inj found]
        exact ⟨[], as, rfl, List.nodup_nil, nofun, .inl known⟩
      next new =>
        obtain ⟨before, after, rfl, distinct, fresh, again⟩ := ih found
        refine ⟨b :: before, after, rfl, ?_, ?_, ?_⟩
        · exact List.nodup_cons.mpr ⟨fun mem => fresh b mem List.mem_cons_self, distinct⟩
        · refine List.forall_mem_cons.mpr ⟨new, fun other mem known => ?_⟩
          exact fresh other mem (List.mem_cons_of_mem b known)
        · rcases again with known | mem
          · rcases List.mem_cons.mp known with rfl | known
            · exact .inr List.mem_cons_self
            · exact .inl known
          · exact .inr (List.mem_cons_of_mem b mem)

theorem firstRepeat_of_firstRepeat? (found : firstRepeat? [] as = some a) : FirstRepeat a as := by
  obtain ⟨before, after, split, distinct, _, again⟩ := exists_of_firstRepeat? found
  exact ⟨before, after, split, distinct, again.resolve_left nofun⟩

end FirstRepeat

/-- No aggregate stands anywhere in the clause, on either side of a condition. -/
def WhereClause.AggregateFree (w : WhereClause) : Prop :=
  ∀ condition : Condition, condition.InClause w → ∀ a : Argument, a.IsAggregate →
    ¬ condition.Holds a

namespace Configuration

variable {c : Configuration}

/-! ## The four faults -/

/-- No entry of GROUP BY and ORDER BY is blank. -/
def HasNoBlankEntry (c : Configuration) : Prop :=
  ∀ entry ∈ c.groupBy ++ c.orderBy, Text.isBlankText entry = false

/-- No aggregate stands in the field of a condition of WHERE, at any depth. -/
def HasNoAggregateField (c : Configuration) : Prop :=
  ∀ condition : Condition, condition.InClause c.conditions →
    ∀ a : Argument, a.IsAggregate → ¬ condition.field.Holds a

/-- Every placeholder in a condition of WHERE or HAVING is declared. -/
def DeclaresPlaceholders (c : Configuration) : Prop :=
  ∀ condition : Condition, condition.InClause c.conditions ∨ condition ∈ c.having →
    ∀ name, ∀ a : Argument, a.StandsFor name → condition.Holds a →
      c.parameters.contains name = true

/-- The placeholder is not declared, and is the first of which that is true. -/
def FirstUndeclared (name : String) (c : Configuration) : Prop :=
  ∃ before after, c.placeholders = before ++ name :: after ∧
    (∀ other ∈ before, c.parameters.contains other = true) ∧ c.parameters.contains name = false

theorem mem_placeholders_iff {name : String} :
    name ∈ c.placeholders ↔
      ∃ condition : Condition, (condition.InClause c.conditions ∨ condition ∈ c.having) ∧
        ∃ a : Argument, a.StandsFor name ∧ condition.Holds a := by
  rw [placeholders, mem_firstSeen, List.mem_flatMap]
  apply exists_congr
  intro condition
  rw [List.mem_append, WhereClause.mem_conditions_iff, Condition.mem_placeholders_iff]

theorem declaresPlaceholders_iff :
    c.DeclaresPlaceholders ↔ ∀ name ∈ c.placeholders, c.parameters.contains name = true := by
  constructor
  · intro declares name named
    obtain ⟨condition, clause, a, parameter, holds⟩ := mem_placeholders_iff.mp named
    exact declares condition clause name a parameter holds
  · intro declared condition clause name a parameter holds
    exact declared name (mem_placeholders_iff.mpr ⟨condition, clause, a, parameter, holds⟩)

theorem hasNoAggregateField_iff :
    c.HasNoAggregateField ↔ c.conditions.conditions.findSome? Condition.aggregateField? = none := by
  rw [List.findSome?_eq_none_iff]
  apply forall_congr'
  intro condition
  rw [WhereClause.mem_conditions_iff, Condition.aggregateField?_eq_none_iff]

theorem hasNoBlankEntry_iff :
    c.HasNoBlankEntry ↔
      c.groupBy.any Text.isBlankText = false ∧ c.orderBy.any Text.isBlankText = false := by
  rw [HasNoBlankEntry, List.forall_mem_append, List.any_eq_false, List.any_eq_false]
  simp only [Bool.not_eq_true]

/-! ## What is reported -/

theorem WellFormed.clauseFault?_eq_none_iff (wellFormed : c.WellFormed) :
    c.clauseFault? = none ↔ c.HasNoBlankEntry ∧ c.HasNoAggregateField := by
  rw [wellFormed.clauseFault?_eq, hasNoBlankEntry_iff, hasNoAggregateField_iff]
  cases c.groupBy.any Text.isBlankText <;> cases c.orderBy.any Text.isBlankText <;> simp

theorem referenceFault?_of_repeated (repeated : ¬ c.aliases.Nodup) :
    ∃ name, FirstRepeat name c.aliases ∧ c.referenceFault? = some (.repeatedAlias name) := by
  rw [referenceFault?]
  cases found : firstRepeat? [] c.aliases with
  | none => exact absurd (firstRepeat?_eq_none_iff.mp found).1 repeated
  | some name => exact ⟨name, firstRepeat_of_firstRepeat? found, rfl⟩

/-- Without a repeated alias the placeholders are looked at, if any parameter is declared. -/
theorem referenceFault?_of_nodup (distinct : c.aliases.Nodup) :
    c.referenceFault? =
      if c.parameters.isEmpty then none
      else (c.placeholders.find? fun name => !c.parameters.contains name).map fun name =>
        .undeclaredParameter name (Suggestion.find? name c.parameters.keys) := by
  have none : firstRepeat? [] c.aliases = none := firstRepeat?_eq_none_iff.mpr ⟨distinct, nofun⟩
  rw [referenceFault?, none]

theorem referenceFault?_of_undeclared (distinct : c.aliases.Nodup)
    (declaring : c.parameters.isEmpty = false) (undeclared : ¬ c.DeclaresPlaceholders) :
    ∃ name, FirstUndeclared name c ∧ c.referenceFault? =
      some (.undeclaredParameter name (Suggestion.find? name c.parameters.keys)) := by
  rw [referenceFault?_of_nodup distinct, if_neg (by simp [declaring])]
  cases found : c.placeholders.find? fun name => !c.parameters.contains name with
  | none =>
      have declared := List.find?_eq_none.mp found
      exact absurd (declaresPlaceholders_iff.mpr (by simpa using declared)) undeclared
  | some name =>
      obtain ⟨free, before, after, split, declared⟩ := List.find?_eq_some_iff_append.mp found
      exact ⟨name, ⟨before, after, split, by simpa using declared, by simpa using free⟩, rfl⟩

theorem referenceFault?_eq_none_iff :
    c.referenceFault? = none ↔
      c.aliases.Nodup ∧ (c.parameters.isEmpty = true ∨ c.DeclaresPlaceholders) := by
  by_cases distinct : c.aliases.Nodup
  · rw [referenceFault?_of_nodup distinct, declaresPlaceholders_iff]
    cases declaring : c.parameters.isEmpty <;> simp [distinct, List.find?_eq_none]
  · obtain ⟨name, _, fault⟩ := referenceFault?_of_repeated distinct
    simp [fault, distinct]

theorem validate_of_clauseFault? {cause : Defect} (fault : c.clauseFault? = some cause) :
    c.validate = .error (.structural cause) := by
  rw [validate, fault]

/-- Names are checked once the clauses are found to be in order. -/
theorem validate_of_referenceFault? {cause : ReferenceFault} (clauses : c.clauseFault? = none)
    (fault : c.referenceFault? = some cause) : c.validate = .error (.referential cause) := by
  rw [validate, clauses, fault]

theorem validate_eq_ok_iff :
    c.validate = .ok () ↔ c.clauseFault? = none ∧ c.referenceFault? = none := by
  refine ⟨faults_of_validate, ?_⟩
  rintro ⟨clauses, references⟩
  rw [validate, clauses, references]

/--
What the check says of a configuration that can be built. It accepts those without any of the four
faults, and of the others it reports the first fault: one of structure before one of reference, and
a repeated alias before an undeclared placeholder.
-/
theorem Built.validate_cases (built : c.Built) :
    (c.validate = .ok () ↔ c.HasNoBlankEntry ∧ c.HasNoAggregateField ∧ c.aliases.Nodup ∧
      (c.parameters.isEmpty = true ∨ c.DeclaresPlaceholders)) ∧
    (¬ (c.HasNoBlankEntry ∧ c.HasNoAggregateField) →
      ∃ cause, c.validate = .error (.structural cause)) ∧
    (c.HasNoBlankEntry → c.HasNoAggregateField → ¬ c.aliases.Nodup →
      ∃ name, FirstRepeat name c.aliases ∧
        c.validate = .error (.referential (.repeatedAlias name))) ∧
    (c.HasNoBlankEntry → c.HasNoAggregateField → c.aliases.Nodup →
      ¬ (c.parameters.isEmpty = true ∨ c.DeclaresPlaceholders) →
        ∃ name, FirstUndeclared name c ∧ c.validate = .error (.referential
          (.undeclaredParameter name (Suggestion.find? name c.parameters.keys)))) := by
  have clauses : c.clauseFault? = none ↔ c.HasNoBlankEntry ∧ c.HasNoAggregateField :=
    built.parts.wellFormed.clauseFault?_eq_none_iff
  refine ⟨?_, ?_, ?_, ?_⟩
  · rw [validate_eq_ok_iff, clauses, referenceFault?_eq_none_iff, and_assoc]
  · intro faulty
    obtain ⟨cause, fault⟩ := Option.ne_none_iff_exists'.mp (mt clauses.mp faulty)
    exact ⟨cause, validate_of_clauseFault? fault⟩
  · intro entries fields repeated
    obtain ⟨name, first, fault⟩ := referenceFault?_of_repeated repeated
    exact ⟨name, first, validate_of_referenceFault? (clauses.mpr ⟨entries, fields⟩) fault⟩
  · intro entries fields distinct faulty
    obtain ⟨declaring, undeclared⟩ := not_or.mp faulty
    obtain ⟨name, first, fault⟩ :=
      referenceFault?_of_undeclared distinct (Bool.eq_false_iff.mpr declaring) undeclared
    exact ⟨name, first, validate_of_referenceFault? (clauses.mpr ⟨entries, fields⟩) fault⟩

end Configuration

/-- The orders of a user, with one alias for both tables and a misspelt parameter. -/
def ordersOfUser : Configuration :=
  (((Configuration.start ⟨[⟨.raw "u.id", none⟩]⟩ ⟨"users", some "u"⟩).withJoins
    [⟨.inner, "orders", some "u", "u.id = u.user_id", true⟩]).withWhere
      (.condition ⟨.column "u.id", .equal, .scalar (.ofParameter "usr")⟩)).withParameter "user"
        (.ofRequired .integer)

theorem ordersOfUser_built : ordersOfUser.Built := by
  have chosen : Condition.Built ⟨.column "u.id", .equal, .scalar (.ofParameter "usr")⟩ :=
    ⟨.column "u.id", .equal, .scalar (.ofParameter "usr"), .column _, .scalar _, rfl⟩
  have select : Select.Built ⟨[⟨.raw "u.id", none⟩]⟩ := .single ⟨.raw "u.id", none, .raw _, rfl⟩
  have orders : ∀ j ∈ [(⟨.inner, "orders", some "u", "u.id = u.user_id", true⟩ : Join)],
      j.Built := by
    intro j mem
    rw [List.mem_singleton.mp mem]
    exact ⟨.inner, "orders", some "u", "u.id = u.user_id", _, true, rfl, rfl⟩
  have start := Configuration.Built.start select ⟨"users", some "u", rfl⟩
  exact ((start.joins orders).predicate (.condition chosen)).parameter "user" _

/-- The alias is reported, and the parameter is not. -/
theorem validate_cases_ordersOfUser :
    ordersOfUser.Built ∧ ∃ name, FirstRepeat name ordersOfUser.aliases ∧
      ordersOfUser.validate = .error (.referential (.repeatedAlias name)) := by
  obtain ⟨_, _, repeated, _⟩ := ordersOfUser_built.validate_cases
  have entries : ordersOfUser.HasNoBlankEntry := nofun
  have fields : ordersOfUser.HasNoAggregateField :=
    Configuration.hasNoAggregateField_iff.mpr rfl
  exact ⟨ordersOfUser_built, repeated entries fields (by decide)⟩

/-! ## Aggregates in WHERE -/

/--
In a configuration that passes its check, no aggregate stands in a field of WHERE. So WHERE is free
of aggregates if the values of its conditions are, and only then.
-/
theorem Configuration.aggregateFree_iff_of_validate {c : Configuration} (built : c.Built)
    (valid : c.validate = .ok ()) : c.HasNoAggregateField ∧
      (c.conditions.AggregateFree ↔ ∀ condition : Condition, condition.InClause c.conditions →
        ∀ a : Argument, a.IsAggregate → ¬ condition.value.Holds a) := by
  have clauses : c.clauseFault? = none := (faults_of_validate valid).1
  have fields : c.HasNoAggregateField :=
    (built.parts.wellFormed.clauseFault?_eq_none_iff.mp clauses).2
  refine ⟨fields, ?_, ?_⟩
  · intro free condition inside a aggregate holds
    exact free condition inside a aggregate (.inr holds)
  · intro values condition inside a aggregate holds
    rcases holds with field | value
    · exact fields condition inside a aggregate field
    · exact values condition inside a aggregate value

/-- The aggregate of the totals by period stands in HAVING; their WHERE has only a range of days. -/
theorem aggregateFree_totalsByPeriod :
    totalsByPeriod.Built ∧ totalsByPeriod.validate = .ok () ∧
      totalsByPeriod.conditions.AggregateFree := by
  have free := Configuration.aggregateFree_iff_of_validate totalsByPeriod_built totalsByPeriod_valid
  refine ⟨totalsByPeriod_built, totalsByPeriod_valid, free.2.mpr ?_⟩
  intro condition inside a aggregate holds
  have conditions : totalsByPeriod.conditions.conditions =
      [⟨.column "t.day", .between, .list [.ofParameter "from", .ofParameter "to"]⟩] := rfl
  have mem := WhereClause.mem_conditions_iff.mpr inside
  rw [conditions] at mem
  rw [List.mem_singleton.mp mem] at holds
  obtain ⟨l, _, rfl⟩ := holds
  exact aggregate

/-- The payments above the average, compared with an aggregate. -/
def aboveAverage : Configuration :=
  (Configuration.start ⟨[⟨.raw "id", none⟩]⟩ ⟨"payments", none⟩).withWhere
    (.condition ⟨.column "amount", .greater, .call ⟨"AVG", [.column "amount"]⟩⟩)

theorem aboveAverage_obtained : Obtained (.configuration aboveAverage) := by
  have amount : ∀ a ∈ [Argument.column "amount"], Obtained (.argument a) := by
    simpa using .column "amount"
  have average : Obtained (.call ⟨"AVG", [.column "amount"]⟩) :=
    .call amount (show Call.make "AVG" _ = .ok _ from rfl)
  have above : Obtained (.condition
      ⟨.column "amount", .greater, .call ⟨"AVG", [.column "amount"]⟩⟩) :=
    .condition (.columnField "amount") (.callOperand average)
      (show Condition.make _ .greater _ = .ok _ from rfl)
  have ids : Obtained (.select ⟨[⟨.raw "id", none⟩]⟩) :=
    .columns (show Select.columns ["id"] = .ok _ from rfl)
  have payments : Obtained (.table ⟨"payments", none⟩) :=
    .table (show TableRef.make "payments" none = .ok _ from rfl)
  exact .withWhere (.start ids payments) (.single above)

/-- It passes the check although an aggregate stands in its WHERE clause. -/
theorem aboveAverage_not_aggregateFree :
    Obtained (.configuration aboveAverage) ∧ aboveAverage.validate = .ok () ∧
      ¬ aboveAverage.conditions.AggregateFree := by
  refine ⟨aboveAverage_obtained, by decide, fun free => ?_⟩
  have inside : Condition.InClause ⟨.column "amount", .greater, .call ⟨"AVG", [.column "amount"]⟩⟩
      aboveAverage.conditions := ⟨_, List.mem_singleton.mpr rfl, .here⟩
  have aggregate : Argument.IsAggregate (.call "AVG" [.column "amount"]) :=
    ⟨"AVG", by decide, by decide⟩
  exact free _ inside _ aggregate (.inr .here)

end RuleQuery
