/-
# The course of a rule

Whoever holds a rule asks it for changes and for its statement, one after another, and goes on with
the rule that comes back. A request that fails gives nothing back, so the old rule is kept.
`Rule.step` is one request with this taken into account, `Rule.after` is the rule at the end of a
list of them, and `Rule.told` is what was announced on the way.

The outcome of a request is one of four: it fails, it asks for what is there already, it makes a
checked and dated change that is announced, or it compiles the rule and announces that.
`Rule.of_step` lists them, and what holds along every course is proved from it by induction on the
requests.
-/

import RuleQuery.Proofs.Rule.Mutation

namespace RuleQuery

open RuleQuery.Calendar

/-- What can be asked of a rule: a change, or the statement it stands for. -/
inductive Request
  | change (m : Mutation)
  | statement (settings : Settings) (bindings : Bindings)

namespace Rule

/-- The answer to a request. A rule that is compiled is not changed. -/
def respond (r : Rule) (request : Request) (now : Timestamp) : Outcome :=
  match request with
  | .change m => r.apply m now
  | .statement settings bindings =>
    (r.compile settings bindings now).map fun answer => (r, some answer.2)

/-- The rule to go on with after a request, and what is announced. A failure changes nothing. -/
def step (r : Rule) (asked : Request × Timestamp) : Rule × Option Notification :=
  match r.respond asked.1 asked.2 with
  | .ok outcome => outcome
  | .error _ => (r, none)

/-- The rule after some requests. -/
def after (r : Rule) (requests : List (Request × Timestamp)) : Rule :=
  requests.foldl (fun r asked => (r.step asked).1) r

/-- What is announced during some requests, in order. -/
def told (r : Rule) : List (Request × Timestamp) → List Notification
  | [] => []
  | asked :: requests => (r.step asked).2.toList ++ (r.step asked).1.told requests

theorem after_cons (r : Rule) (asked : Request × Timestamp)
    (requests : List (Request × Timestamp)) :
    r.after (asked :: requests) = (r.step asked).1.after requests := rfl

theorem after_append (r : Rule) (first second : List (Request × Timestamp)) :
    r.after (first ++ second) = (r.after first).after second :=
  List.foldl_append

/-- What has happened when a rule is compiled. -/
theorem of_compile {r : Rule} {settings : Settings} {bindings : Bindings} {now : Timestamp}
    {sql : String} {n : Notification} (compiled : r.compile settings bindings now = .ok (sql, n)) :
    n = (Change.compiled r.name bindings.size).notify r.id now := by
  unfold compile at compiled
  cases valid : r.validate with
  | error e =>
      rw [valid] at compiled
      cases compiled
  | ok _ =>
      cases query : r.configuration.compile settings bindings with
      | error e =>
          rw [valid, query] at compiled
          cases compiled
      | ok query' =>
          rw [valid, query] at compiled
          cases compiled
          rfl

/-- Everything that a request can come to. -/
theorem of_step (r : Rule) (request : Request) (now : Timestamp) :
    r.step (request, now) = (r, none) ∨
      (∃ m, request = .change m ∧ ¬ m.Idle r ∧ m.Allowed r ∧ (m.next r).validate = .ok () ∧
        r.step (request, now) =
          ({ m.next r with updatedAt := now }, some ((m.change r).notify r.id now))) ∨
      ∃ settings bindings, request = .statement settings bindings ∧
        r.step (request, now) =
          (r, some ((Change.compiled r.name bindings.size).notify r.id now)) := by
  cases request with
  | change m =>
      cases made : r.apply m now with
      | error e => exact .inl (by simp only [step, respond, made])
      | ok outcome =>
          obtain ⟨next, n⟩ := outcome
          have answer : r.step (.change m, now) = (next, n) := by simp only [step, respond, made]
          rcases of_apply made with ⟨_, rfl, rfl⟩ | ⟨busy, allowed, valid, rfl, rfl⟩
          · exact .inl answer
          · exact .inr (.inl ⟨m, rfl, busy, allowed, valid, answer⟩)
  | statement settings bindings =>
      cases compiled : r.compile settings bindings now with
      | error e => exact .inl (by simp only [step, respond, compiled, Except.map])
      | ok answer =>
          obtain ⟨sql, n⟩ := answer
          have news := of_compile compiled
          exact .inr (.inr ⟨settings, bindings, rfl, by
            simp only [step, respond, compiled, Except.map, news]⟩)

end Rule

end RuleQuery
