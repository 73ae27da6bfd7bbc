/-
# Editing a rule

A rule is edited one field at a time, and after each change it is checked in full. Two of the
business rules are about two fields: the balance has to suit the profile, and the tables have to
cover the configuration. So the order of the changes counts. A rule becomes prepaid after its
balance has been made the main one, and gets another balance after it has ceased to be prepaid; and
the tables are first extended by the new ones, and the old ones are given up when the configuration
that needs them is gone. In this order, which `Rule.editsTo` lists, the way to a lawful rule leads
through lawful rules only, so that no change is refused.
-/

import RuleQuery.Proofs.Rule.Lifecycle

namespace RuleQuery

open RuleQuery.Calendar

/-! ## Changes that are not refused -/

/-- A change that does not move a rule along its lifecycle. -/
def Mutation.IsEdit (m : Mutation) : Prop := ∀ target, m ≠ .transition target

theorem Mutation.IsEdit.allowed {m : Mutation} (edit : m.IsEdit) (r : Rule) : m.Allowed r := by
  cases m with
  | transition target => exact absurd rfl (edit target)
  | _ => trivial

namespace Rule

/-- Make changes one after another, each at its own time, as long as none is refused. -/
def run (r : Rule) : List (Mutation × Timestamp) → Except RuleError Rule
  | [] => .ok r
  | (m, now) :: asked => do
    let (next, _) ← r.apply m now
    next.run asked

/-- With each of the changes, the rule passes its check. -/
def StaysValid (r : Rule) : List Mutation → Prop
  | [] => True
  | m :: ms => (m.next r).validate = .ok () ∧ (m.next r).StaysValid ms

variable {r : Rule}

theorem staysValid_append {first second : List Mutation} :
    r.StaysValid (first ++ second) ↔
      r.StaysValid first ∧ (first.foldl Mutation.next r).StaysValid second := by
  induction first generalizing r with
  | nil => exact (iff_of_eq (true_and _)).symm
  | cons m first ih =>
      rw [List.cons_append, StaysValid, StaysValid, ih, List.foldl_cons, and_assoc]

theorem next_updatedAt (r : Rule) (m : Mutation) (t : Timestamp) :
    m.next { r with updatedAt := t } = { m.next r with updatedAt := t } := by
  cases m <;> rfl

/-- When a rule was changed last does not count. -/
theorem foldl_next_updatedAt (r : Rule) (ms : List Mutation) (t : Timestamp) :
    ms.foldl Mutation.next { r with updatedAt := t } =
      { ms.foldl Mutation.next r with updatedAt := t } := by
  induction ms generalizing r with
  | nil => rfl
  | cons m ms ih => rw [List.foldl_cons, next_updatedAt, ih, List.foldl_cons]

theorem StaysValid.updatedAt {ms : List Mutation} (valid : r.StaysValid ms) (t : Timestamp) :
    StaysValid { r with updatedAt := t } ms := by
  induction ms generalizing r with
  | nil => trivial
  | cons m ms ih =>
      rw [StaysValid, next_updatedAt]
      exact ⟨valid.1, ih valid.2⟩

/-- Edits all succeed if the rule passes its check with each of them. -/
theorem run_of_staysValid {ms : List Mutation} (edits : ∀ m ∈ ms, m.IsEdit)
    (valid : r.StaysValid ms) {asked : List (Mutation × Timestamp)}
    (these : asked.map Prod.fst = ms) :
    ∃ t, r.run asked = .ok { ms.foldl Mutation.next r with updatedAt := t } := by
  induction asked generalizing r ms with
  | nil =>
      subst these
      exact ⟨r.updatedAt, rfl⟩
  | cons one asked ih =>
      obtain ⟨m, now⟩ := one
      subst these
      obtain ⟨edit, edits⟩ := List.forall_mem_cons.mp edits
      obtain ⟨t, n, made⟩ := apply_of_valid (edit.allowed r) valid.1 now
      obtain ⟨last, rest⟩ := ih edits (valid.2.updatedAt t) rfl
      refine ⟨last, ?_⟩
      rw [run, made]
      refine rest.trans ?_
      rw [foldl_next_updatedAt]
      rfl

end Rule

/-! ## The way to other contents -/

/-- What can be edited of a rule. -/
structure Content where
  name : String
  profile : Profile
  balance : Balance
  tables : NameSet
  configuration : Configuration

/-- The rule with other contents. -/
def Rule.withContent (r : Rule) (c : Content) : Rule :=
  { r with
    name := c.name
    profile := c.profile
    balance := c.balance
    tables := c.tables
    configuration := c.configuration }

namespace Content

/-- The profile and the balance, in the order in which they can be changed. -/
def billing (c : Content) : List Mutation :=
  match c.profile with
  | .prepaid => [.changeBalance c.balance, .changeProfile c.profile]
  | .hybrid => [.changeProfile c.profile, .changeBalance c.balance]

/-- The configuration, with the tables in use until then and those in use from then on. -/
def scope (c : Content) (before : NameSet) : List Mutation :=
  [.replaceTables (before.keys ++ c.tables.keys), .replaceConfiguration c.configuration,
    .replaceTables c.tables.keys]

end Content

namespace Rule

/-- The edits that lead to other contents. -/
def editsTo (r : Rule) (c : Content) : List Mutation :=
  .rename c.name :: (c.billing ++ c.scope r.tables)

variable {r : Rule} {c : Content}

/-- More tables may be declared than are needed. -/
theorem Lawful.declare (lawful : r.Lawful) {tables : NameSet}
    (more : ∀ t ∈ r.tables.keys, t ∈ tables.keys) : Lawful { r with tables } :=
  { lawful with
    someTable := fun none => by
      simpa [none] using more _ lawful.mainTable
    mainTable := more _ lawful.mainTable
    joinedTables := fun j mem => more _ (lawful.joinedTables j mem) }

theorem Lawful.billing (lawful : r.Lawful) (suits : c.profile = .prepaid → c.balance = .main) :
    r.StaysValid c.billing := by
  unfold Content.billing
  cases profile : c.profile with
  | prepaid =>
      -- The main balance suits the old profile, too, whichever that is.
      have main := suits profile
      exact ⟨(validate_iff_lawful _).mpr { lawful with prepaid := fun _ => main },
        (validate_iff_lawful _).mpr { lawful with prepaid := fun _ => main }, trivial⟩
  | hybrid =>
      -- Once the profile is hybrid, no balance is refused.
      exact ⟨(validate_iff_lawful _).mpr { lawful with prepaid := nofun },
        (validate_iff_lawful _).mpr { lawful with prepaid := nofun }, trivial⟩

theorem foldl_next_billing (r : Rule) (c : Content) :
    c.billing.foldl Mutation.next r = { r with profile := c.profile, balance := c.balance } := by
  unfold Content.billing
  cases c.profile <;> rfl

theorem Lawful.scope (lawful : r.Lawful)
    (target : Lawful { r with tables := c.tables, configuration := c.configuration }) :
    r.StaysValid (c.scope r.tables) := by
  have all {t : String} : t ∈ (NameSet.ofNames (r.tables.keys ++ c.tables.keys)).keys ↔
      t ∈ r.tables.keys ∨ t ∈ c.tables.keys := by
    rw [NameSet.mem_keys_ofNames, List.mem_append]
  have before : Lawful { r with tables := .ofNames (r.tables.keys ++ c.tables.keys) } :=
    lawful.declare fun t mem => all.mpr (.inl mem)
  have after : Lawful
      { r with
        tables := .ofNames (r.tables.keys ++ c.tables.keys)
        configuration := c.configuration } :=
    target.declare fun t mem => all.mpr (.inr mem)
  have last : Lawful
      { r with tables := .ofNames c.tables.keys, configuration := c.configuration } := by
    rw [NameSet.ofNames_keys]
    exact target
  exact ⟨(validate_iff_lawful _).mpr before, (validate_iff_lawful _).mpr after,
    (validate_iff_lawful _).mpr last, trivial⟩

theorem foldl_next_scope (r : Rule) (c : Content) :
    (c.scope r.tables).foldl Mutation.next r =
      { r with tables := c.tables, configuration := c.configuration } := by
  simp only [Content.scope, List.foldl_cons, List.foldl_nil, Mutation.next, NameSet.ofNames_keys]

theorem isEdit_of_mem_editsTo {m : Mutation} (mem : m ∈ r.editsTo c) : m.IsEdit := by
  rintro target rfl
  cases profile : c.profile <;> simp [editsTo, Content.billing, Content.scope, profile] at mem

theorem foldl_next_editsTo (r : Rule) (c : Content) :
    (r.editsTo c).foldl Mutation.next r = r.withContent c := by
  rw [editsTo, List.foldl_cons, List.foldl_append, foldl_next_billing]
  exact foldl_next_scope _ c

/-- The way from a lawful rule to a lawful rule leads through lawful rules. -/
theorem Lawful.staysValid_editsTo (lawful : r.Lawful) (target : (r.withContent c).Lawful) :
    r.StaysValid (r.editsTo c) := by
  have renamed : Lawful { r with name := c.name } := { lawful with named := target.named }
  have billed : Lawful { r with name := c.name, profile := c.profile, balance := c.balance } :=
    { renamed with prepaid := target.prepaid }
  refine ⟨(validate_iff_lawful _).mpr renamed, staysValid_append.mpr
    ⟨renamed.billing target.prepaid, ?_⟩⟩
  rw [foldl_next_billing]
  exact billed.scope target

/--
Every rule that passes its check can be edited into every rule that passes its check, has the same
identity and is in the same state. There is a list of edits for this, none of which is refused
whenever they are made.
-/
theorem exists_edits {r : Rule} {c : Content} (valid : r.validate = .ok ())
    (target : (r.withContent c).validate = .ok ()) :
    ∃ edits : List Mutation, (∀ m ∈ edits, m.IsEdit) ∧
      ∀ asked : List (Mutation × Timestamp), asked.map Prod.fst = edits →
        ∃ t, r.run asked = .ok { r.withContent c with updatedAt := t } := by
  rw [validate_iff_lawful] at valid target
  refine ⟨r.editsTo c, fun m => isEdit_of_mem_editsTo, fun asked these => ?_⟩
  rw [← foldl_next_editsTo]
  exact run_of_staysValid (fun m => isEdit_of_mem_editsTo) (valid.staysValid_editsTo target) these

end Rule

/-- A draft for hybrid subscribers, computed against their credit. -/
def creditRule : Rule :=
  { Rule.ofNew (newPaymentRule .null) ⟨2⟩ firstOfMarch with balance := .cred }

/-- Contents that share no field with the draft. -/
def accountContent : Content where
  name := "Accounts"
  profile := .prepaid
  balance := .main
  tables := .ofNames ["accounts"]
  configuration := .start ⟨[⟨.raw "id", none⟩]⟩ ⟨"accounts", none⟩

/-- The draft can be edited into them, although most of the changes cannot be the first one. -/
theorem creditRule_exists_edits :
    creditRule.validate = .ok () ∧ (creditRule.withContent accountContent).validate = .ok () ∧
    (∀ m ∈ [.changeProfile .prepaid, .replaceTables ["accounts"],
        .replaceConfiguration accountContent.configuration],
      (creditRule.apply m firstOfMarch).toOption = none) ∧
    ∃ edits : List Mutation, (∀ m ∈ edits, m.IsEdit) ∧
      ∀ asked : List (Mutation × Timestamp), asked.map Prod.fst = edits →
        ∃ t, creditRule.run asked =
          .ok { creditRule.withContent accountContent with updatedAt := t } := by
  have valid : creditRule.validate = .ok () := by
    decide +kernel
  have target : (creditRule.withContent accountContent).validate = .ok () := by
    decide +kernel
  have refused : ∀ m ∈ [.changeProfile .prepaid, .replaceTables ["accounts"],
      .replaceConfiguration accountContent.configuration],
      (creditRule.apply m firstOfMarch).toOption = none := by
    decide +kernel
  exact ⟨valid, target, refused, Rule.exists_edits valid target⟩

end RuleQuery
