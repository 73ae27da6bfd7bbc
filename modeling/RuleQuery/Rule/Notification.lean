/-
# Notifications

Whoever follows a rule learns of a change from a notification: which rule, what happened, when, and
a document with the particulars. A log collects notifications until they are handed over.
-/

import RuleQuery.Calendar.Timestamp
import RuleQuery.Rule.Event

namespace RuleQuery

open RuleQuery.Calendar

/-- The news of a change. -/
structure Notification where
  event : Event
  ruleId : Uuid
  occurredAt : Timestamp
  payload : Json
  deriving DecidableEq

/-- The notification of a change of the given rule at the given time. -/
def Change.notify (change : Change) (rule : Uuid) (now : Timestamp) : Notification :=
  ⟨change.event, rule, now, change.payload⟩

/-- Notifications that have not been handed over, in order. -/
structure NotificationLog where
  pending : List Notification
  deriving DecidableEq

namespace NotificationLog

def empty : NotificationLog := ⟨[]⟩

def push (log : NotificationLog) (n : Notification) : NotificationLog :=
  ⟨log.pending ++ [n]⟩

/-- Log the notification of a change, if there is one. -/
def record (log : NotificationLog) (n : Option Notification) : NotificationLog :=
  ⟨log.pending ++ n.toList⟩

def size (log : NotificationLog) : Nat := log.pending.length

def isEmpty (log : NotificationLog) : Bool := log.pending.isEmpty

/-- Hand over what is pending. -/
def drain (log : NotificationLog) : List Notification × NotificationLog :=
  (log.pending, empty)

end NotificationLog

end RuleQuery
