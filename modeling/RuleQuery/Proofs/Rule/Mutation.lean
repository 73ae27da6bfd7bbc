/-
# The changes of a rule

The changes that can be asked of a rule, as data, so that a run of a rule is a list of them.
Whatever the change, it has one of two outcomes when it succeeds: nothing was to be changed, and the
rule is the same and silent; or the rule with the change made has passed its check, is dated and is
announced. `Rule.of_apply` says this for all changes at once, and what holds of every rule that can
come about is proved from it by one induction.
-/

import RuleQuery.Proofs.Document.Tree
import RuleQuery.Rule.Basic

namespace RuleQuery

open RuleQuery.Calendar

/-- A change that can be asked of a rule. -/
inductive Mutation
  | rename (name : String)
  | changeProfile (profile : Profile)
  | changeBalance (balance : Balance)
  | replaceConfiguration (configuration : Configuration)
  | replaceTables (tables : List String)
  | transition (target : Status)

namespace Mutation

/-- The rule with the change made, before it is checked and dated. -/
def next (r : Rule) : Mutation → Rule
  | .rename name => { r with name }
  | .changeProfile profile => { r with profile }
  | .changeBalance balance => { r with balance }
  | .replaceConfiguration configuration => { r with configuration }
  | .replaceTables tables => { r with tables := .ofNames tables }
  | .transition target => { r with status := target }

/-- What is announced of the change. -/
def change (r : Rule) : Mutation → Change
  | .rename name => .renamed r.name name
  | .changeProfile profile => .profileChanged r.profile profile
  | .changeBalance balance => .balanceChanged r.balance balance
  | .replaceConfiguration _ => .configurationReplaced r.name
  | .replaceTables tables => .tablesReplaced r.tables (.ofNames tables)
  | .transition target => .moved r.name r.status target

/-- Nothing would change. To replace a configuration is a change, even by the same one. -/
def Idle (r : Rule) (m : Mutation) : Prop :=
  m.next r = r ∧ ∀ configuration, m ≠ .replaceConfiguration configuration

/-- Only the lifecycle restricts what may be asked. -/
def Allowed (r : Rule) : Mutation → Prop
  | .transition target => r.status.canMoveTo target = true
  | _ => True

end Mutation

namespace Rule

/-- Ask a rule for a change. -/
def apply (r : Rule) (m : Mutation) (now : Timestamp) : Outcome :=
  match m with
  | .rename name => r.rename name now
  | .changeProfile profile => r.changeProfile profile now
  | .changeBalance balance => r.changeBalance balance now
  | .replaceConfiguration configuration => r.replaceConfiguration configuration now
  | .replaceTables tables => r.replaceTables tables now
  | .transition target => r.transition target now

/-- A new rule that passes its check is accepted. -/
theorem create_of_valid {new : NewRule} {id : Uuid} {now : Timestamp}
    (valid : (ofNew new id now).validate = .ok ()) :
    create new id now = .ok (ofNew new id now, (ofNew new id now).creation.notify id now) := by
  simp only [create, valid, bind, Except.bind, pure, Except.pure]

/-- The next rule is accepted if it passes its check. -/
theorem commit_of_valid {next : Rule} (valid : next.validate = .ok ()) (change : Change)
    (now : Timestamp) :
    commit next change now =
      .ok ({ next with updatedAt := now }, some (change.notify next.id now)) := by
  simp only [commit, valid, bind, Except.bind, pure, Except.pure]

/-- What has happened when a new rule is accepted. -/
theorem of_create {new : NewRule} {id : Uuid} {now : Timestamp} {r : Rule} {n : Notification}
    (made : create new id now = .ok (r, n)) :
    r = ofNew new id now ∧ r.validate = .ok () ∧ n = r.creation.notify id now := by
  unfold create at made
  dsimp only at made
  cases valid : (ofNew new id now).validate with
  | error e =>
      rw [valid] at made
      cases made
  | ok _ =>
      rw [valid] at made
      cases made
      exact ⟨rfl, valid, rfl⟩

/-- What has happened when the next rule is accepted. -/
theorem of_commit {next r : Rule} {change : Change} {now : Timestamp} {n : Option Notification}
    (made : commit next change now = .ok (r, n)) :
    next.validate = .ok () ∧ r = { next with updatedAt := now } ∧
      n = some (change.notify next.id now) := by
  unfold commit at made
  cases valid : next.validate with
  | error e =>
      rw [valid] at made
      cases made
  | ok _ =>
      rw [valid] at made
      cases made
      exact ⟨rfl, rfl, rfl⟩

/-- A change is idle, or it is made, checked, dated and announced. -/
theorem of_apply {r r' : Rule} {m : Mutation} {now : Timestamp} {n : Option Notification}
    (made : r.apply m now = .ok (r', n)) :
    (m.Idle r ∧ r' = r ∧ n = none) ∨
      (¬ m.Idle r ∧ m.Allowed r ∧ (m.next r).validate = .ok () ∧
        r' = { m.next r with updatedAt := now } ∧ n = some ((m.change r).notify r.id now)) := by
  have choose {given : Prop} [Decidable given] {next : Rule} {change : Change}
      (same : given ↔ next = r) (other : ∀ configuration, m ≠ .replaceConfiguration configuration)
      (asked : m.next r = next)
      (made : (if given then r.unchanged else commit next change now) = .ok (r', n)) :
      (m.Idle r ∧ r' = r ∧ n = none) ∨ (¬ m.Idle r ∧ next.validate = .ok () ∧
        r' = { next with updatedAt := now } ∧ n = some (change.notify next.id now)) := by
    by_cases idle : given
    · rw [if_pos idle] at made
      cases made
      exact .inl ⟨⟨asked.trans (same.mp idle), other⟩, rfl, rfl⟩
    · rw [if_neg idle] at made
      exact .inr ⟨fun nothing => idle (same.mpr (asked.symm.trans nothing.1)), of_commit made⟩
  cases m with
  | rename name =>
      have same : name = r.name ↔ { r with name } = r := ⟨by rintro rfl; rfl, congrArg Rule.name⟩
      exact (choose same nofun rfl made).imp_right fun ⟨busy, outcome⟩ => ⟨busy, trivial, outcome⟩
  | changeProfile profile =>
      have same : profile = r.profile ↔ { r with profile } = r :=
        ⟨by rintro rfl; rfl, congrArg Rule.profile⟩
      exact (choose same nofun rfl made).imp_right fun ⟨busy, outcome⟩ => ⟨busy, trivial, outcome⟩
  | changeBalance balance =>
      have same : balance = r.balance ↔ { r with balance } = r :=
        ⟨by rintro rfl; rfl, congrArg Rule.balance⟩
      exact (choose same nofun rfl made).imp_right fun ⟨busy, outcome⟩ => ⟨busy, trivial, outcome⟩
  | replaceConfiguration configuration =>
      exact .inr ⟨fun nothing => nothing.2 configuration rfl, trivial, of_commit made⟩
  | replaceTables tables =>
      have same : NameSet.ofNames tables = r.tables ↔
          { r with tables := NameSet.ofNames tables } = r :=
        ⟨fun given => by rw [given], congrArg Rule.tables⟩
      exact (choose same nofun rfl made).imp_right fun ⟨busy, outcome⟩ => ⟨busy, trivial, outcome⟩
  | transition target =>
      have same : target = r.status ↔ { r with status := target } = r :=
        ⟨by rintro rfl; rfl, congrArg Rule.status⟩
      by_cases allowed : r.status.canMoveTo target = true
      · rw [apply, Rule.transition, if_pos allowed] at made
        exact (choose same nofun rfl made).imp_right fun ⟨busy, outcome⟩ => ⟨busy, allowed, outcome⟩
      · have moving : target ≠ r.status := by
          rintro rfl
          exact allowed (by simp [Status.canMoveTo])
        rw [apply, Rule.transition, if_neg moving, if_neg allowed] at made
        cases made

/-- A change that is allowed and leads to a rule that passes its check succeeds. -/
theorem apply_of_valid {r : Rule} {m : Mutation} (allowed : m.Allowed r)
    (valid : (m.next r).validate = .ok ()) (now : Timestamp) :
    ∃ t n, r.apply m now = .ok ({ m.next r with updatedAt := t }, n) := by
  have choose {given : Prop} [Decidable given] {next : Rule} {change : Change}
      (same : given → next = r) (valid : next.validate = .ok ()) :
      ∃ t n, (if given then r.unchanged else commit next change now) =
        .ok ({ next with updatedAt := t }, n) := by
    by_cases idle : given
    · rw [if_pos idle, same idle]
      exact ⟨r.updatedAt, none, rfl⟩
    · rw [if_neg idle]
      exact ⟨now, _, commit_of_valid valid change now⟩
  cases m with
  | rename name => exact choose (by rintro rfl; rfl) valid
  | changeProfile profile => exact choose (by rintro rfl; rfl) valid
  | changeBalance balance => exact choose (by rintro rfl; rfl) valid
  | replaceConfiguration configuration => exact ⟨now, _, commit_of_valid valid _ now⟩
  | replaceTables tables => exact choose (fun same => by rw [same]) valid
  | transition target =>
      have allowed : r.status.canMoveTo target = true := allowed
      rw [apply, transition, if_pos allowed]
      exact choose (by rintro rfl; rfl) valid

end Rule

/-! ## Rules that can come about -/

/-- A configuration that can be built, and whose numbers can be written. -/
structure Configuration.Writable (c : Configuration) : Prop where
  built : c.Built
  finite : ∀ l ∈ c.literals, l.IsFinite

/-- A change that brings in no configuration, or one that can be written. -/
def Mutation.Writable : Mutation → Prop
  | .replaceConfiguration configuration => configuration.Writable
  | _ => True

/-- A rule that is made, and then changed any number of times. -/
inductive Rule.Reached : Rule → Prop
  | created {new : NewRule} {id : Uuid} {now : Timestamp} {r : Rule} {n : Notification}
      (writable : new.configuration.Writable) (made : Rule.create new id now = .ok (r, n)) :
      Rule.Reached r
  | changed {r r' : Rule} {m : Mutation} {now : Timestamp} {n : Option Notification}
      (before : Rule.Reached r) (writable : m.Writable) (made : r.apply m now = .ok (r', n)) :
      Rule.Reached r'

/-- A rule that has been checked and whose configuration can be written. -/
structure Rule.Sound (r : Rule) : Prop where
  valid : r.validate = .ok ()
  writable : r.configuration.Writable

/-- A new rule has been checked. -/
theorem Rule.Sound.create {new : NewRule} {id : Uuid} {now : Timestamp} {r : Rule}
    {n : Notification} (writable : new.configuration.Writable)
    (made : Rule.create new id now = .ok (r, n)) : r.Sound := by
  obtain ⟨rfl, valid, _⟩ := of_create made
  exact ⟨valid, writable⟩

/-- A change leaves a rule sound. -/
theorem Rule.Sound.apply {r r' : Rule} {m : Mutation} {now : Timestamp}
    {n : Option Notification} (sound : r.Sound) (writable : m.Writable)
    (made : r.apply m now = .ok (r', n)) : r'.Sound := by
  rcases of_apply made with ⟨_, rfl, _⟩ | ⟨_, _, valid, rfl, _⟩
  · exact sound
  · refine ⟨valid, ?_⟩
    cases m with
    | replaceConfiguration configuration => exact writable
    | _ => exact sound.writable

/-- Every rule that can come about is sound. -/
theorem Rule.Reached.sound {r : Rule} (reached : r.Reached) : r.Sound := by
  induction reached with
  | created writable made => exact .create writable made
  | changed _ writable made sound => exact sound.apply writable made

end RuleQuery
