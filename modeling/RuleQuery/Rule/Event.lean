/-
# Events and changes

An event is the name of what happened to a rule; a change is an event with everything there is to
know about it, old and new values included. What those who follow a rule are told of a change is a
document, and which document that is depends on the change alone.
-/

import RuleQuery.Json.Basic
import RuleQuery.Rule.Balance
import RuleQuery.Rule.Profile
import RuleQuery.Uuid

namespace RuleQuery

/-- What happened to a rule. -/
inductive Event
  | created | nameUpdated | profileUpdated | balanceUpdated | configurationUpdated | tablesUpdated
  | sqlGenerated | productionStarted | toValidateStarted | draftStarted | archived
  deriving DecidableEq, Repr, Inhabited

namespace Event

/-- All events. -/
def all : List Event :=
  [.created, .nameUpdated, .profileUpdated, .balanceUpdated, .configurationUpdated,
    .tablesUpdated, .sqlGenerated, .productionStarted, .toValidateStarted, .draftStarted,
    .archived]

def name : Event → String
  | .created => "rule.created"
  | .nameUpdated => "rule.name_updated"
  | .profileUpdated => "rule.profile_type_updated"
  | .balanceUpdated => "rule.balance_type_updated"
  | .configurationUpdated => "rule.configuration_updated"
  | .tablesUpdated => "rule.tables_updated"
  | .sqlGenerated => "rule.sql_generated"
  | .productionStarted => "rule.production_started"
  | .toValidateStarted => "rule.to_validate_started"
  | .draftStarted => "rule.draft_started"
  | .archived => "rule.archived"

/-- The event with exactly this name. -/
def ofName? (s : String) : Option Event :=
  all.find? fun e => e.name == s

/-- The event of reaching a state. -/
def ofStatus : Status → Event
  | .draft => .draftStarted
  | .toValidate => .toValidateStarted
  | .inProduction => .productionStarted
  | .archived => .archived

theorem ofName?_name (e : Event) : ofName? e.name = some e := by
  cases e <;> decide

end Event

/-- A change of a rule, with what there is to know about it. -/
inductive Change
  | created (name : String) (profile : Profile) (balance : Balance) (sectionId : Uuid)
      (status : Status)
  | renamed (old new : String)
  | profileChanged (old new : Profile)
  | balanceChanged (old new : Balance)
  | configurationReplaced (rule : String)
  | tablesReplaced (old new : NameSet)
  | moved (rule : String) (source target : Status)
  | compiled (rule : String) (parameters : Nat)

namespace Change

def event : Change → Event
  | .created .. => .created
  | .renamed .. => .nameUpdated
  | .profileChanged .. => .profileUpdated
  | .balanceChanged .. => .balanceUpdated
  | .configurationReplaced _ => .configurationUpdated
  | .tablesReplaced .. => .tablesUpdated
  | .moved _ _ target => .ofStatus target
  | .compiled .. => .sqlGenerated

/-- The document with the particulars of a change. -/
def payload : Change → Json
  | .created name profile balance sectionId status =>
    .object [("balance_type", .string balance.name), ("name", .string name),
      ("profile_type", .string profile.name), ("section_id", .string sectionId.text),
      ("status", .string status.name)]
  | .renamed old new => .object [("new_name", .string new), ("old_name", .string old)]
  | .profileChanged old new =>
    .object [("new_profile_type", .string new.name), ("old_profile_type", .string old.name)]
  | .balanceChanged old new =>
    .object [("new_balance_type", .string new.name), ("old_balance_type", .string old.name)]
  | .configurationReplaced rule => .object [("rule_name", .string rule)]
  | .tablesReplaced old new =>
    .object [("new_tables", .ofStrings new.keys), ("old_tables", .ofStrings old.keys)]
  | .moved rule source target =>
    .object [("from_status", .string source.name), ("rule_name", .string rule),
      ("to_status", .string target.name)]
  | .compiled rule parameters =>
    .object [("parameters_count", .int parameters), ("rule_name", .string rule)]

end Change

end RuleQuery
