/-
# What holds of a rule at all times

A rule comes about by being made or by being loaded, and from there on it takes its course. Wherever
the course has led, the rule is lawful: it has a name and a section, its balance suits its profile,
its tables cover its configuration, and the configuration passes its check. So it can be compiled,
since compiling checks nothing else. Its identity is that of the rule it started as, and its status
goes along the four moves of the lifecycle, one at a time.

The check itself is only an order in which these rules are tried; `Rule.validate_iff_lawful` says
what it amounts to. That a course keeps to the lifecycle is `Rule.status_step` for one request, from
which it follows that no rule goes into production without having been validated, and that an
archived rule stays archived.
-/

import Mathlib.Data.List.Induction
import RuleQuery.Proofs.Rule.Course
import RuleQuery.Proofs.Rule.Reload

namespace RuleQuery

open RuleQuery.Calendar

/-! ## The moves of the lifecycle -/

/-- The moves of a rule from one state to another. -/
inductive Status.Precedes : Status → Status → Prop
  | validation : Status.Precedes .draft .toValidate
  | production : Status.Precedes .toValidate .inProduction
  | revision : Status.Precedes .toValidate .draft
  | retirement : Status.Precedes .inProduction .archived

/-- A rule may stay where it is or make one of the moves. -/
theorem Status.canMoveTo_iff (source target : Status) :
    source.canMoveTo target = true ↔ target = source ∨ source.Precedes target := by
  constructor
  · intro allowed
    cases source <;> cases target <;> first
      | exact .inl rfl
      | exact .inr (by constructor)
      | exact absurd allowed (by decide)
  · rintro (rfl | move)
    · simp [canMoveTo]
    · cases move <;> decide

/-! ## Lawful rules -/

/-- The business rules, and the check of the configuration. -/
structure Rule.Lawful (r : Rule) : Prop where
  named : ∃ c ∈ r.name.toList, Text.isBlank c = false
  placed : r.sectionId ≠ Uuid.nil
  prepaid : r.profile = .prepaid → r.balance = .main
  someTable : r.tables.keys ≠ []
  mainTable : r.configuration.table.name ∈ r.tables.keys
  joinedTables : ∀ j ∈ r.configuration.joins, j.table ∈ r.tables.keys
  configuration : r.configuration.validate = .ok ()

namespace Rule

/-- The tables of a configuration are declared. -/
theorem undeclaredTable_eq_none_iff (r : Rule) :
    (r.configuration.tables.find? fun t => !r.tables.contains t) = none ↔
      r.configuration.table.name ∈ r.tables.keys ∧
        ∀ j ∈ r.configuration.joins, j.table ∈ r.tables.keys := by
  have declared (t : String) : r.tables.contains t = true ↔ t ∈ r.tables.keys :=
    lookup?_isSome t r.tables.entries
  simp only [List.find?_eq_none, Bool.not_eq_true', Bool.not_eq_false, declared,
    Configuration.tables, mem_firstSeen, List.forall_mem_cons, List.forall_mem_map]

/-- A rule passes its check if and only if it is lawful. -/
theorem validate_iff_lawful (r : Rule) : r.validate = .ok () ↔ r.Lawful := by
  have named : Text.isBlankText r.name = false ↔ ∃ c ∈ r.name.toList, Text.isBlank c = false := by
    simp [Text.isBlankText]
  have tabled : r.tables.isEmpty = false ↔ r.tables.keys ≠ [] := by
    simp [NameMap.isEmpty, NameMap.keys]
  have lawful : r.invariantFault? = none ↔ Text.isBlankText r.name = false ∧
      r.sectionId ≠ Uuid.nil ∧ (r.profile = .prepaid → r.balance = .main) ∧
        r.tables.isEmpty = false ∧
          (r.configuration.tables.find? fun t => !r.tables.contains t) = none := by
    unfold invariantFault?
    split_ifs <;> simp_all
  rw [named, tabled, undeclaredTable_eq_none_iff] at lawful
  constructor
  · intro valid
    obtain ⟨none, configuration⟩ := of_validate valid
    obtain ⟨named, placed, prepaid, someTable, mainTable, joinedTables⟩ := lawful.mp none
    exact ⟨named, placed, prepaid, someTable, mainTable, joinedTables, configuration⟩
  · rintro ⟨named, placed, prepaid, someTable, mainTable, joinedTables, configuration⟩
    rw [validate, lawful.mpr ⟨named, placed, prepaid, someTable, mainTable, joinedTables⟩]
    exact configuration

/-! ## One request -/

/-- A rule that passes its check is compiled, whatever the settings and the bindings. -/
theorem compile_of_valid {r : Rule} (valid : r.validate = .ok ()) (settings : Settings)
    (bindings : Bindings) (now : Timestamp) :
    ∃ sql, r.compile settings bindings now =
      .ok (sql, (Change.compiled r.name bindings.size).notify r.id now) := by
  have query := Configuration.compile_of_valid (of_validate valid).2 settings bindings
  unfold compile
  rw [valid, query]
  exact ⟨_, rfl⟩

/-- A change alters what it is about, and the date of the rule. -/
theorem eq_next_of_apply {r next : Rule} {m : Mutation} {now : Timestamp}
    {n : Option Notification} (made : r.apply m now = .ok (next, n)) :
    next = { m.next r with updatedAt := next.updatedAt } := by
  rcases of_apply made with ⟨idle, rfl, _⟩ | ⟨_, _, _, rfl, _⟩
  · rw [idle.1]
  · rfl

/-- The check does not look at the date of a rule. -/
theorem validate_step {r : Rule} (valid : r.validate = .ok ()) (asked : Request × Timestamp) :
    (r.step asked).1.validate = .ok () := by
  rcases of_step r asked.1 asked.2 with same | ⟨m, _, _, _, passed, made⟩ | ⟨_, _, _, compiled⟩
  · rw [same]
    exact valid
  · rw [made]
    exact passed
  · rw [compiled]
    exact valid

/-- Two rules are the same one, at different times. -/
def SameIdentity (r s : Rule) : Prop :=
  r.id = s.id ∧ r.createdAt = s.createdAt ∧ r.sectionId = s.sectionId

theorem sameIdentity_next (r : Rule) (m : Mutation) : (m.next r).SameIdentity r := by
  cases m <;> exact ⟨rfl, rfl, rfl⟩

theorem sameIdentity_step (r : Rule) (asked : Request × Timestamp) :
    (r.step asked).1.SameIdentity r := by
  rcases of_step r asked.1 asked.2 with same | ⟨m, _, _, _, _, made⟩ | ⟨_, _, _, compiled⟩
  · rw [same]
    exact ⟨rfl, rfl, rfl⟩
  · rw [made]
    exact sameIdentity_next r m
  · rw [compiled]
    exact ⟨rfl, rfl, rfl⟩

/-- Only a transition changes the status, and only along a move that there is. -/
theorem status_next {r : Rule} {m : Mutation} (allowed : m.Allowed r) :
    (m.next r).status = r.status ∨ r.status.Precedes (m.next r).status := by
  cases m with
  | transition target => exact (Status.canMoveTo_iff r.status target).mp allowed
  | _ => exact .inl rfl

/-- With each request the status stays or makes one move. -/
theorem status_step (r : Rule) (asked : Request × Timestamp) :
    (r.step asked).1.status = r.status ∨ r.status.Precedes (r.step asked).1.status := by
  rcases of_step r asked.1 asked.2 with same | ⟨m, _, _, allowed, _, made⟩ | ⟨_, _, _, compiled⟩
  · exact .inl (by rw [same])
  · rw [made]
    exact status_next allowed
  · exact .inl (by rw [compiled])

/-! ## A whole course -/

/-- What holds of a rule and is kept by every request holds wherever the course leads. -/
theorem after_induction {P : Rule → Prop} (kept : ∀ r asked, P r → P (step r asked).1)
    {start : Rule} (holds : P start) (requests : List (Request × Timestamp)) :
    P (start.after requests) := by
  induction requests generalizing start with
  | nil => exact holds
  | cons asked requests ih => exact ih (kept start asked holds)

theorem validate_after {start : Rule} (valid : start.validate = .ok ())
    (requests : List (Request × Timestamp)) : (start.after requests).validate = .ok () :=
  after_induction (P := fun r => r.validate = .ok ())
    (fun _ asked holds => validate_step holds asked) valid requests

theorem sameIdentity_after (start : Rule) (requests : List (Request × Timestamp)) :
    (start.after requests).SameIdentity start := by
  apply after_induction (P := fun r => r.SameIdentity start) _ ⟨rfl, rfl, rfl⟩
  intro r asked holds
  obtain ⟨id, createdAt, sectionId⟩ := sameIdentity_step r asked
  exact ⟨id.trans holds.1, createdAt.trans holds.2.1, sectionId.trans holds.2.2⟩

/-- No move leads away from the archive. -/
theorem archived_after {start : Rule} (archived : start.status = .archived)
    (requests : List (Request × Timestamp)) : (start.after requests).status = .archived := by
  apply after_induction (P := fun r => r.status = .archived) _ archived
  intro r asked holds
  rcases status_step r asked with same | move
  · rw [same, holds]
  · rw [holds] at move
    cases move

/-- A rule that was not in production and is now has been in validation between. -/
theorem exists_validated {start : Rule} (before : start.status ≠ .inProduction)
    (requests : List (Request × Timestamp))
    (released : (start.after requests).status = .inProduction) :
    ∃ first second, requests = first ++ second ∧ (start.after first).status = .toValidate := by
  induction requests using List.reverseRecOn with
  | nil => exact absurd released before
  | append_singleton requests asked ih =>
      rw [after_append, after_cons] at released
      change ((start.after requests).step asked).1.status = _ at released
      rcases status_step (start.after requests) asked with same | move
      · rw [same] at released
        obtain ⟨first, second, rfl, validated⟩ := ih released
        exact ⟨first, second ++ [asked], by rw [List.append_assoc], validated⟩
      · rw [released] at move
        generalize validated : (start.after requests).status = status at move
        cases move
        exact ⟨requests, [asked], rfl, validated⟩

/-- A rule as it comes about: newly made, or loaded. -/
inductive Started : Rule → Prop
  | made {new : NewRule} {id : Uuid} {now : Timestamp} {r : Rule} {n : Notification}
      (made : create new id now = .ok (r, n)) : Started r
  | loaded {record : Record} {r : Rule} (loaded : ofRecord record = .ok r) : Started r

/-- A rule that is loaded has been checked. -/
theorem of_ofRecord {record : Record} {r : Rule} (loaded : ofRecord record = .ok r) :
    r.validate = .ok () := by
  unfold ofRecord at loaded
  cases read : Configuration.ofDocument record.configuration with
  | error e =>
      rw [read] at loaded
      cases loaded
  | ok c =>
      cases valid : (ofParts record c).validate with
      | error e =>
          simp only [read, valid, bind, Except.bind] at loaded
          cases loaded
      | ok _ =>
          simp only [read, valid, bind, Except.bind, pure, Except.pure] at loaded
          cases loaded
          exact valid

theorem Started.valid {start : Rule} (started : start.Started) : start.validate = .ok () := by
  cases started with
  | made made => exact (of_create made).2.1
  | loaded loaded => exact of_ofRecord loaded

/--
Wherever the course of a rule has led, the rule is lawful and can be compiled, it is the same rule
as at its start, each further change alters one field and the date, and the status makes one move of
the lifecycle at a time. In particular a rule that was made as a draft is in production only if it
has been in validation, and an archived rule stays archived.
-/
theorem Started.lawful_after {start : Rule} (started : start.Started)
    (requests : List (Request × Timestamp)) :
    (start.after requests).validate = .ok () ∧ (start.after requests).Lawful ∧
    (start.after requests).SameIdentity start ∧
    (∀ settings bindings now, ∃ sql, (start.after requests).compile settings bindings now =
      .ok (sql, (Change.compiled (start.after requests).name bindings.size).notify
        (start.after requests).id now)) ∧
    (∀ m now next n, (start.after requests).apply m now = .ok (next, n) →
      next = { m.next (start.after requests) with updatedAt := next.updatedAt }) ∧
    (∀ asked, (start.after (requests ++ [asked])).status = (start.after requests).status ∨
      (start.after requests).status.Precedes (start.after (requests ++ [asked])).status) ∧
    (∀ new id now n, create new id now = .ok (start, n) → start.status = .draft ∧
      ((start.after requests).status = .inProduction → ∃ first second,
        requests = first ++ second ∧ (start.after first).status = .toValidate)) ∧
    ((start.after requests).status = .archived →
      ∀ more, (start.after (requests ++ more)).status = .archived) := by
  have valid := validate_after started.valid requests
  refine ⟨valid, (validate_iff_lawful _).mp valid, sameIdentity_after start requests,
    compile_of_valid valid, fun m now next n => eq_next_of_apply, ?_, ?_, ?_⟩
  · intro asked
    rw [after_append]
    exact status_step (start.after requests) asked
  · intro new id now n made
    have draft : start.status = .draft := by
      obtain ⟨rfl, _, _⟩ := of_create made
      rfl
    exact ⟨draft, exists_validated (by simp [draft]) requests⟩
  · intro archived more
    rw [after_append]
    exact archived_after archived more

end Rule

/-- A draft that cannot go into production at once nor be made prepaid on the other balance. -/
def releaseOfPayments : List (Request × Timestamp) :=
  [.transition .inProduction, .rename "Payments by day", .changeBalance .cred,
    .changeProfile .prepaid, .transition .toValidate, .replaceTables ["accounts"],
    .transition .inProduction].map fun m => (.change m, firstOfMarch)

/-- The draft of the rule about payments is made, and is released after it has been validated. -/
theorem lawful_after_releaseOfPayments :
    let draft := Rule.ofNew (newPaymentRule .null) ⟨2⟩ firstOfMarch
    let released := draft.after releaseOfPayments
    draft.Started ∧ (released.name = "Payments by day" ∧ released.profile = .hybrid ∧
      released.balance = .cred ∧ released.tables = .ofNames ["payments"] ∧
      released.status = .inProduction) ∧
    released.validate = .ok () ∧ released.Lawful ∧ released.SameIdentity draft ∧
    (∃ sql, released.compile .default .empty firstOfMarch =
      .ok (sql, (Change.compiled "Payments by day" 0).notify ⟨2⟩ firstOfMarch)) ∧
    ∃ first second, releaseOfPayments = first ++ second ∧
      (draft.after first).status = .toValidate := by
  intro draft released
  have made : Rule.create (newPaymentRule .null) ⟨2⟩ firstOfMarch =
      .ok (draft, draft.creation.notify ⟨2⟩ firstOfMarch) :=
    Rule.create_of_valid (paymentRule_valid .null)
  have fields : released.name = "Payments by day" ∧ released.profile = .hybrid ∧
      released.balance = .cred ∧ released.tables = .ofNames ["payments"] ∧
      released.status = .inProduction := by
    decide +kernel
  obtain ⟨valid, lawful, same, compiled, _, _, history, _⟩ :=
    Rule.Started.lawful_after (.made made) releaseOfPayments
  obtain ⟨_, production⟩ := history _ _ _ _ made
  refine ⟨.made made, fields, valid, lawful, same, ?_, production fields.2.2.2.2⟩
  obtain ⟨sql, result⟩ := compiled .default .empty firstOfMarch
  refine ⟨sql, result.trans ?_⟩
  rw [fields.1, same.1]
  rfl

end RuleQuery
