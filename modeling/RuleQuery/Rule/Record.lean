/-
# Stored forms

Rules, notifications and settings are stored as documents whose shape is fixed by the names of
their fields. A document may be an object, where keys that are not fields are ignored, or an array
of the fields in order. A name out of a fixed list may also be stored as an object whose only entry
has that key and holds null. The stored form of a rule is a record, in which the configuration is a
document that has yet to be decoded; the rule that a record gives is checked in full.
-/

import RuleQuery.Document.Configuration
import RuleQuery.Rule.Basic

namespace RuleQuery

open RuleQuery.Calendar

namespace Stored

/-- A name out of a fixed list. -/
def name? : Json → Option String
  | .string s => some s
  | .object [(s, .null)] => some s
  | _ => none

def text? : Json → Option String
  | .string s => some s
  | _ => none

def texts? : Json → Option (List String)
  | .array items => items.mapM text?
  | _ => none

/-- A size, which is a natural number of 64 bits. -/
def size? : Json → Option Nat
  | .int n => if Number.isNat64 n then some n.toNat else none
  | _ => none

def uuid? (v : Json) : Option Uuid := (text? v).bind Uuid.read?

def instant? (v : Json) : Option Timestamp := (text? v).bind readInstant?

def profile? (v : Json) : Option Profile := (name? v).bind Profile.ofExactName?

def balance? (v : Json) : Option Balance := (name? v).bind Balance.ofExactName?

def status? (v : Json) : Option Status :=
  (name? v).bind fun s => Status.all.find? fun status => status.name == s

def event? (v : Json) : Option Event := (name? v).bind Event.ofName?

def separator? (v : Json) : Option Separator := (name? v).bind Separator.ofName?

/-- The document for a point in time. -/
def ofInstant (t : Timestamp) : Json := .string (String.ofList t.instantText)

/-- The value of a field of a document that stores all of the given fields. -/
def field? (fields : List String) (v : Json) (name : String) : Option Json :=
  match v with
  | .object entries => lookup? name entries
  | .array items => if items.length = fields.length then items[fields.idxOf name]? else none
  | _ => none

end Stored

namespace Notification

/-- The fields of a stored notification, in order. -/
def fields : List String := ["event_type", "entity_id", "occurred_at", "payload"]

/-- The document for a notification. -/
def encode (n : Notification) : Json :=
  .object [("entity_id", .string n.ruleId.text), ("event_type", .string n.event.name),
    ("occurred_at", Stored.ofInstant n.occurredAt), ("payload", n.payload)]

/-- The notification of a document. -/
def decode? (v : Json) : Option Notification := do
  let get := Stored.field? fields v
  return ⟨← (← get "event_type") |> Stored.event?, ← (← get "entity_id") |> Stored.uuid?,
    ← (← get "occurred_at") |> Stored.instant?, ← get "payload"⟩

end Notification

namespace Settings

/-- The document for settings. -/
def encode (s : Settings) : Json :=
  .object [("clause_separator", .string s.separator.name), ("max_query_length", .int s.maxLength)]

/-- The settings of two values, each of which may be missing. -/
def ofParts? (separator maxLength : Option Json) : Option Settings := do
  let separator ← match separator with
    | some v => Stored.separator? v
    | none => some default.separator
  let maxLength ← match maxLength with
    | some v => Stored.size? v
    | none => some default.maxLength
  return ⟨separator, maxLength⟩

/-- The settings of a document. What is missing has its default. -/
def decode? : Json → Option Settings
  | .object entries =>
    ofParts? (lookup? "clause_separator" entries) (lookup? "max_query_length" entries)
  | .array [] => ofParts? none none
  | .array [separator] => ofParts? (some separator) none
  | .array [separator, maxLength] => ofParts? (some separator) (some maxLength)
  | _ => none

end Settings

/-- The stored form of a rule. -/
structure Record where
  id : Uuid
  createdAt : Timestamp
  updatedAt : Timestamp
  name : String
  profile : Profile
  balance : Balance
  tables : List String
  sectionId : Uuid
  configuration : Json
  status : Status
  deriving DecidableEq

namespace Record

/-- The fields of a stored rule, in order. -/
def fields : List String :=
  ["id", "created_at", "updated_at", "name", "profile_type", "balance_type", "database_tables",
    "section_id", "configuration", "status"]

/-- The document for a record. -/
def encode (r : Record) : Json :=
  .object [("balance_type", .string r.balance.name), ("configuration", r.configuration),
    ("created_at", Stored.ofInstant r.createdAt), ("database_tables", .ofStrings r.tables),
    ("id", .string r.id.text), ("name", .string r.name),
    ("profile_type", .string r.profile.name), ("section_id", .string r.sectionId.text),
    ("status", .string r.status.name), ("updated_at", Stored.ofInstant r.updatedAt)]

/-- The record of a document. -/
def decode? (v : Json) : Option Record := do
  let get := Stored.field? fields v
  return {
    id := ← (← get "id") |> Stored.uuid?
    createdAt := ← (← get "created_at") |> Stored.instant?
    updatedAt := ← (← get "updated_at") |> Stored.instant?
    name := ← (← get "name") |> Stored.text?
    profile := ← (← get "profile_type") |> Stored.profile?
    balance := ← (← get "balance_type") |> Stored.balance?
    tables := ← (← get "database_tables") |> Stored.texts?
    sectionId := ← (← get "section_id") |> Stored.uuid?
    configuration := ← get "configuration"
    status := ← (← get "status") |> Stored.status? }

end Record

namespace Rule

/-- The record to store for a rule. -/
def toRecord (r : Rule) : Record :=
  ⟨r.id, r.createdAt, r.updatedAt, r.name, r.profile, r.balance, r.tables.keys, r.sectionId,
    r.configuration.encode, r.status⟩

/-- The rule of a record with its configuration decoded. -/
def ofParts (record : Record) (configuration : Configuration) : Rule :=
  ⟨record.id, record.createdAt, record.updatedAt, record.name, record.profile, record.balance,
    .ofNames record.tables, record.sectionId, configuration, record.status⟩

/-- The rule of a record. -/
def ofRecord (record : Record) : Except RuleError Rule := do
  let configuration ← Configuration.ofDocument record.configuration
  let rule := ofParts record configuration
  rule.validate
  return rule

end Rule

end RuleQuery
