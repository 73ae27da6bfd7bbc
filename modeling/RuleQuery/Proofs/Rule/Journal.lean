/-
# Following a rule by its notifications

Someone who follows a rule sees nothing of it but its notifications. `Digest` is what these tell:
the name, the profile, the balance, the tables, the status and the date of the last change. A digest
is carried on by reading the document of each notification; one that cannot be read, or whose event
does not suit its document, makes the digest useless. It never comes to that: along every course of
every rule the digest carried on from its start is the digest of its end.

A journal is a rule together with the log that its notifications are put into. It may be emptied at
any time. What has been handed over and what is still pending make up what was announced, in order.
-/

import RuleQuery.Proofs.NameMap
import RuleQuery.Proofs.Rule.Course
import RuleQuery.Rule.Record

namespace RuleQuery

open RuleQuery.Calendar

/-! ## The log -/

/-- A notification comes into the log with the outcome it belongs to, or by itself. -/
inductive Filing
  | recorded | pushed

/-- Put a notification into the log, if there is one. -/
def NotificationLog.file (log : NotificationLog) (n : Option Notification) :
    Filing → NotificationLog
  | .recorded => log.record n
  | .pushed =>
    match n with
    | some n => log.push n
    | none => log

/-- Either way the notification is the last one pending. -/
theorem NotificationLog.pending_file (log : NotificationLog) (n : Option Notification)
    (filing : Filing) : (log.file n filing).pending = log.pending ++ n.toList := by
  cases filing with
  | recorded => rfl
  | pushed =>
      cases n with
      | none => exact (List.append_nil _).symm
      | some n => rfl

/-- A rule, the log of its notifications, and what the log has handed over so far. -/
structure Journal where
  rule : Rule
  log : NotificationLog
  drained : List (List Notification)

/-- What is done with a journal: a request is made of the rule, or the log is emptied. -/
inductive Journal.Act
  | ask (request : Request) (now : Timestamp) (filing : Filing)
  | drain

namespace Journal

/-- A journal with an empty log. -/
def ofRule (r : Rule) : Journal := ⟨r, .empty, []⟩

def act (j : Journal) : Act → Journal
  | .ask request now filing =>
    ⟨(j.rule.step (request, now)).1, j.log.file (j.rule.step (request, now)).2 filing, j.drained⟩
  | .drain => ⟨j.rule, j.log.drain.2, j.drained ++ [j.log.drain.1]⟩

def run (j : Journal) (acts : List Act) : Journal := acts.foldl act j

/-- All notifications that have come into the log: first those handed over, then those pending. -/
def notifications (j : Journal) : List Notification := j.drained.flatten ++ j.log.pending

/-- The requests among what is done with a journal. -/
def requests (acts : List Act) : List (Request × Timestamp) :=
  acts.filterMap fun
    | .ask request now _ => some (request, now)
    | .drain => none

/-- Emptying the log moves notifications and loses none. -/
theorem notifications_drain (j : Journal) : (j.act .drain).notifications = j.notifications := by
  simp [notifications, act, NotificationLog.drain, NotificationLog.empty]

theorem notifications_ask (j : Journal) (request : Request) (now : Timestamp) (filing : Filing) :
    (j.act (.ask request now filing)).notifications =
      j.notifications ++ (j.rule.step (request, now)).2.toList := by
  rw [notifications, notifications, act, NotificationLog.pending_file, List.append_assoc]

/-- The rule takes its course, and what comes into the log is what is announced. -/
theorem run_eq (j : Journal) (acts : List Act) :
    (j.run acts).rule = j.rule.after (requests acts) ∧
      (j.run acts).notifications = j.notifications ++ j.rule.told (requests acts) := by
  induction acts generalizing j with
  | nil => exact ⟨rfl, (List.append_nil _).symm⟩
  | cons a acts ih =>
      obtain ⟨rule, news⟩ := ih (j.act a)
      cases a with
      | ask request now filing =>
          refine ⟨rule, news.trans ?_⟩
          rw [notifications_ask, List.append_assoc]
          rfl
      | drain =>
          refine ⟨rule, news.trans ?_⟩
          rw [notifications_drain]
          rfl

end Journal

/-! ## What is announced of a request -/

namespace Rule

/-- What a rule has under the keys for values that were there before a change. -/
def former (r : Rule) : List (String × Json) :=
  [("old_name", .string r.name), ("old_profile_type", .string r.profile.name),
    ("old_balance_type", .string r.balance.name), ("old_tables", .ofStrings r.tables.keys),
    ("from_status", .string r.status.name)]

end Rule

/-- The key for the value that was there before, in the documents of an event. -/
def Event.formerKey? : Event → Option String
  | .nameUpdated => some "old_name"
  | .profileUpdated => some "old_profile_type"
  | .balanceUpdated => some "old_balance_type"
  | .tablesUpdated => some "old_tables"
  | .productionStarted | .toValidateStarted | .draftStarted | .archived => some "from_status"
  | .created | .configurationUpdated | .sqlGenerated => none

/-- A change is announced with the value that was there before, and with no other such value. -/
theorem Mutation.get?_former (r : Rule) (m : Mutation) {key : String} {old : Json}
    (mem : (key, old) ∈ r.former) :
    (m.change r).payload.get? key =
      if (m.change r).event.formerKey? = some key then some old else none := by
  simp only [Rule.former, List.mem_cons, Prod.mk.injEq, List.not_mem_nil, or_false] at mem
  rcases mem with ⟨rfl, rfl⟩ | ⟨rfl, rfl⟩ | ⟨rfl, rfl⟩ | ⟨rfl, rfl⟩ | ⟨rfl, rfl⟩ <;> cases m with
  | transition target => cases target <;> rfl
  | _ => rfl

/-- Whatever is announced of a request, the old values in it are those of the rule just before. -/
theorem Rule.get?_former_of_step {r : Rule} {asked : Request × Timestamp} {n : Notification}
    (announced : (r.step asked).2 = some n) {key : String} {old : Json}
    (mem : (key, old) ∈ r.former) :
    n.payload.get? key = if n.event.formerKey? = some key then some old else none := by
  rcases of_step r asked.1 asked.2 with same | ⟨m, _, _, _, _, made⟩ | ⟨_, _, _, compiled⟩
  · rw [same] at announced
    cases announced
  · rw [made] at announced
    cases announced
    exact m.get?_former r mem
  · rw [compiled] at announced
    cases announced
    simp only [former, List.mem_cons, Prod.mk.injEq, List.not_mem_nil, or_false] at mem
    rcases mem with ⟨rfl, rfl⟩ | ⟨rfl, rfl⟩ | ⟨rfl, rfl⟩ | ⟨rfl, rfl⟩ | ⟨rfl, rfl⟩ <;>
      rfl

namespace Rule

/-- A change that succeeds is announced if it alters more than the date, or the configuration. -/
theorem isSome_of_apply {r next : Rule} {m : Mutation} {now : Timestamp}
    {n : Option Notification} (made : r.apply m now = .ok (next, n)) :
    (n.isSome = true ↔ { next with updatedAt := r.updatedAt } ≠ r ∨
      ∃ configuration, m = .replaceConfiguration configuration) ∧ (n = none → next = r) := by
  rcases of_apply made with ⟨idle, rfl, rfl⟩ | ⟨busy, _, _, rfl, rfl⟩
  · simp [idle.2]
  · have undated : { m.next r with updatedAt := r.updatedAt } = m.next r := by cases m <;> rfl
    refine ⟨iff_of_true rfl ?_, nofun⟩
    rw [undated]
    by_contra quiet
    obtain ⟨same, other⟩ := not_or.mp quiet
    exact busy ⟨not_not.mp same, fun c replaced => other ⟨c, replaced⟩⟩

/-- What is announced of the requests that may be made of a rule. -/
structure Announces (r : Rule) : Prop where
  /-- Of a change that fails, nothing. -/
  refused : ∀ m now e, r.apply m now = .error e → r.step (.change m, now) = (r, none)
  /--
  Of a change that succeeds, one notification if it alters more than the date or replaces the
  configuration. Otherwise nothing, and then the rule is the same.
  -/
  changed : ∀ m now next n, r.apply m now = .ok (next, n) →
    r.step (.change m, now) = (next, n) ∧
    (n.isSome = true ↔ { next with updatedAt := r.updatedAt } ≠ r ∨
      ∃ configuration, m = .replaceConfiguration configuration) ∧
    (n = none → next = r)
  /-- Of a statement, one notification, and the rule is the same. -/
  compiled : ∀ settings bindings now sql n, r.compile settings bindings now = .ok (sql, n) →
    r.step (.statement settings bindings, now) = (r, some n)
  /-- The old values in a notification are those of the rule. -/
  former : ∀ asked n, (r.step asked).2 = some n → ∀ key old, (key, old) ∈ r.former →
    n.payload.get? key = if n.event.formerKey? = some key then some old else none

theorem announces (r : Rule) : r.Announces where
  refused m now e refused := by simp only [step, respond, refused]
  changed m now next n made :=
    ⟨by simp only [step, respond, made], isSome_of_apply made⟩
  compiled settings bindings now sql n compiled := by
    simp only [step, respond, compiled, Except.map]
  former _ _ announced _ _ mem := get?_former_of_step announced mem

end Rule

/-! ## The digest of a rule -/

/-- What the notifications of a rule tell of it. -/
structure Digest where
  name : String
  profile : Profile
  balance : Balance
  tables : NameSet
  status : Status
  updatedAt : Timestamp

def Rule.digest (r : Rule) : Digest :=
  ⟨r.name, r.profile, r.balance, r.tables, r.status, r.updatedAt⟩

/-- Carry a digest on by a notification that comes after it. -/
def Digest.follow? (d : Digest) (n : Notification) : Option Digest :=
  match n.event with
  | .created => none
  | .sqlGenerated => some d
  | .configurationUpdated => some { d with updatedAt := n.occurredAt }
  | .nameUpdated => do
    let name ← (n.payload.get? "new_name").bind Stored.text?
    return { d with name, updatedAt := n.occurredAt }
  | .profileUpdated => do
    let profile ← (n.payload.get? "new_profile_type").bind Stored.profile?
    return { d with profile, updatedAt := n.occurredAt }
  | .balanceUpdated => do
    let balance ← (n.payload.get? "new_balance_type").bind Stored.balance?
    return { d with balance, updatedAt := n.occurredAt }
  | .tablesUpdated => do
    let tables ← (n.payload.get? "new_tables").bind Stored.texts?
    return { d with tables := .ofNames tables, updatedAt := n.occurredAt }
  | .productionStarted | .toValidateStarted | .draftStarted | .archived => do
    let status ← (n.payload.get? "to_status").bind Stored.status?
    if n.event = .ofStatus status then
      return { d with status, updatedAt := n.occurredAt }
    else none

namespace Stored

theorem texts?_ofStrings (texts : List String) : texts? (.ofStrings texts) = some texts := by
  rw [Json.ofStrings, texts?, List.mapM_map]
  induction texts with
  | nil => rfl
  | cons s texts ih => simp [List.mapM_cons, text?, ih]

end Stored

/-- A digest is carried on by a change to that of the rule with the change made. -/
theorem Mutation.follow?_change (r : Rule) (m : Mutation) (now : Timestamp) :
    r.digest.follow? ((m.change r).notify r.id now) =
      some { (m.next r).digest with updatedAt := now } := by
  cases m with
  | rename name => rfl
  | changeProfile profile => cases profile <;> rfl
  | changeBalance balance => cases balance <;> rfl
  | replaceConfiguration configuration => rfl
  | replaceTables tables =>
      change (Stored.texts? (.ofStrings (NameSet.ofNames tables).keys)).bind (fun names =>
        some { r.digest with tables := .ofNames names, updatedAt := now }) = _
      rw [Stored.texts?_ofStrings, Option.bind_some, NameSet.ofNames_keys]
      rfl
  | transition target => cases target <;> rfl

/-- With every request the digest is carried on to that of the rule to go on with. -/
theorem Rule.foldlM_step (r : Rule) (asked : Request × Timestamp) :
    (r.step asked).2.toList.foldlM Digest.follow? r.digest = some (r.step asked).1.digest := by
  rcases of_step r asked.1 asked.2 with same | ⟨m, _, _, _, _, made⟩ | ⟨_, _, _, compiled⟩
  · rw [same]
    rfl
  · rw [made]
    simp only [Option.toList_some, List.foldlM_cons, Mutation.follow?_change, List.foldlM_nil]
    rfl
  · rw [compiled]
    rfl

/-- What is announced along a course tells the digest of its end. -/
theorem Rule.foldlM_told (start : Rule) (requests : List (Request × Timestamp)) :
    (start.told requests).foldlM Digest.follow? start.digest =
      some (start.after requests).digest := by
  induction requests generalizing start with
  | nil => rfl
  | cons asked requests ih =>
      rw [told, List.foldlM_append, foldlM_step, after_cons, ← ih]
      rfl

/--
A rule takes its course while its notifications are put into a log that is emptied now and then.
What was handed over and what is pending make up what was announced, in order, and from that alone
the digest of the rule at the end is found. What is announced of a single request, and with which
old values, is the same wherever the course has led.
-/
theorem Journal.run_ofRule (start : Rule) (acts : List Act) :
    ((ofRule start).run acts).rule = start.after (requests acts) ∧
    ((ofRule start).run acts).drained.flatten ++ ((ofRule start).run acts).log.pending =
      start.told (requests acts) ∧
    (start.told (requests acts)).foldlM Digest.follow? start.digest =
      some ((ofRule start).run acts).rule.digest ∧
    ∀ before, (start.after before).Announces := by
  obtain ⟨rule, news⟩ := run_eq (ofRule start) acts
  refine ⟨rule, news, ?_, fun before => (start.after before).announces⟩
  rw [rule]
  exact start.foldlM_told (requests acts)

end RuleQuery
