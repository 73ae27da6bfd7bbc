/-
# Rules

A rule is a configuration with its business context: a name, a profile, a balance, the tables it
declares, the section it belongs to, and its state in the lifecycle. A change does not alter the
rule it is asked of. It makes the next rule, checks it in full, and gives it together with the
notification of the change; a change to what is already there gives the same rule and no
notification. Identifiers and times come from the caller.
-/

import RuleQuery.Rule.Notification
import RuleQuery.Sql.Compile

namespace RuleQuery

open RuleQuery.Calendar

/-- What a new rule is made of. -/
structure NewRule where
  name : String
  profile : Profile
  balance : Balance
  tables : List String
  sectionId : Uuid
  configuration : Configuration

/-- A rule. -/
structure Rule where
  id : Uuid
  createdAt : Timestamp
  updatedAt : Timestamp
  name : String
  profile : Profile
  balance : Balance
  tables : NameSet
  sectionId : Uuid
  configuration : Configuration
  status : Status
  deriving DecidableEq

namespace Rule

/-- The business rule that is broken, if one is. -/
def invariantFault? (r : Rule) : Option InvariantFault :=
  if Text.isBlankText r.name then some .unnamed
  else if r.sectionId = Uuid.nil then some .noSection
  else if r.profile = .prepaid && r.balance ≠ .main then some .prepaidBalance
  else if r.tables.isEmpty then some .noTables
  else (r.configuration.tables.find? fun t => !r.tables.contains t).map .undeclaredTable

/-- Check a rule. Its business rules come before its configuration. -/
def validate (r : Rule) : Except RuleError Unit :=
  match r.invariantFault? with
  | some fault => .error (.invariant fault)
  | none => r.configuration.validate

/-- The rule a draft starts as. -/
def ofNew (new : NewRule) (id : Uuid) (now : Timestamp) : Rule :=
  ⟨id, now, now, new.name, new.profile, new.balance, .ofNames new.tables, new.sectionId,
    new.configuration, .draft⟩

/-- The change of coming into being. -/
def creation (r : Rule) : Change :=
  .created r.name r.profile r.balance r.sectionId r.status

/-- Make a new rule, as a draft. -/
def create (new : NewRule) (id : Uuid) (now : Timestamp) :
    Except RuleError (Rule × Notification) := do
  let rule := ofNew new id now
  rule.validate
  return (rule, rule.creation.notify id now)

/-- The outcome of a change: the next rule, and the notification if anything changed. -/
abbrev Outcome := Except RuleError (Rule × Option Notification)

/-- Nothing changes. -/
def unchanged (r : Rule) : Outcome := .ok (r, none)

/-- Go on with the next rule, if it is a valid one. -/
def commit (next : Rule) (change : Change) (now : Timestamp) : Outcome := do
  next.validate
  return ({ next with updatedAt := now }, some (change.notify next.id now))

def rename (r : Rule) (name : String) (now : Timestamp) : Outcome :=
  if name = r.name then r.unchanged
  else commit { r with name } (.renamed r.name name) now

def changeProfile (r : Rule) (profile : Profile) (now : Timestamp) : Outcome :=
  if profile = r.profile then r.unchanged
  else commit { r with profile } (.profileChanged r.profile profile) now

def changeBalance (r : Rule) (balance : Balance) (now : Timestamp) : Outcome :=
  if balance = r.balance then r.unchanged
  else commit { r with balance } (.balanceChanged r.balance balance) now

/-- Replace the whole configuration. This is a change even if the new one is the same. -/
def replaceConfiguration (r : Rule) (configuration : Configuration) (now : Timestamp) : Outcome :=
  commit { r with configuration } (.configurationReplaced r.name) now

def replaceTables (r : Rule) (tables : List String) (now : Timestamp) : Outcome :=
  let tables := NameSet.ofNames tables
  if tables = r.tables then r.unchanged
  else commit { r with tables } (.tablesReplaced r.tables tables) now

/-- Move a rule to a state of its lifecycle. -/
def transition (r : Rule) (target : Status) (now : Timestamp) : Outcome :=
  if target = r.status then r.unchanged
  else if r.status.canMoveTo target then
    commit { r with status := target } (.moved r.name r.status target) now
  else .error (.transition r.status target)

/-- Compile the configuration of a rule, which is news of its own. -/
def compile (r : Rule) (settings : Settings) (bindings : Bindings) (now : Timestamp) :
    Except RuleError (String × Notification) := do
  r.validate
  let query ← r.configuration.compile settings bindings
  return (query.sql, (Change.compiled r.name bindings.size).notify r.id now)

def requiredParameters (r : Rule) : List String := r.configuration.requiredParameters

end Rule

end RuleQuery
