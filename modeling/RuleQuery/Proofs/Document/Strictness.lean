/-
# A key that is not allowed

A document of a configuration holds no keys but those of its nodes. If one more is put into any
object of an accepted document, then the whole document is refused, and it is refused at that
object. The only object to which nothing of the kind applies is the one that declares the
parameters, whose keys are names.

A key can do more than be unknown. Where a condition or a group may stand, the object is a condition
if it has an operator, and where a call or a literal may stand it is a call if it has a function. So
an operator turns a group into a condition and a function turns a literal into a call. But then the
keys that made the object what it was before are not allowed in what it has become, and it is
refused all the same.
-/

import RuleQuery.Proofs.Document.Places
import RuleQuery.Proofs.Document.RoundTrip

namespace RuleQuery

open Decoded

theorem hasKey_insertEntry (key name : String) (x : Json) (entries : List (String × Json)) :
    hasKey name (insertEntry key x entries) = (decide (key = name) || hasKey name entries) := by
  rw [hasKey, hasKey, lookup?_insertEntry]
  split
  next same => simp [same]
  next other => simp [other]

/-- An object with a key that its node does not have is refused as a whole. -/
theorem Node.refuses_unknown {n : Node} {key : String} {entries : List (String × Json)}
    (there : hasKey key entries = true) (unknown : key ∉ n.keys) :
    (n.check (.object entries)).RefusesAt [] := by
  obtain ⟨cause, refused⟩ := Fields.read_unknown n.keys there unknown
  have read : (Fields.read n.keys (.object entries)).RefusesAt [] := ⟨cause, refused⟩
  by_cases literal : n = .literal
  · subst literal
    exact refusesAt_verdict.mpr (read.bind _)
  · obtain ⟨α, decode, same, _, body, _, _, decode_eq⟩ := Node.reads literal
    rw [same, decode_eq]
    exact refusesAt_verdict.mpr (read.bind _)

/-- A group has members. -/
theorem Group.hasKey_of_check {entries : List (String × Json)}
    (accepted : Node.group.check (.object entries) = .ok ()) :
    hasKey "conditions" entries = true := by
  obtain ⟨g, decoded⟩ := verdict_eq_ok.mp accepted
  obtain ⟨fs, read, body⟩ := of_bind_eq_ok decoded
  obtain ⟨same, _⟩ := Fields.of_read read
  cases same
  obtain ⟨name, _, named⟩ := of_bind_eq_ok body
  have members : ∃ vs, fs.items "conditions" = .ok vs := by
    cases name with
    | none =>
        obtain ⟨_, _, rest⟩ := of_bind_eq_ok named
        obtain ⟨vs, items, _⟩ := of_bind_eq_ok rest
        exact ⟨vs, items⟩
    | some s =>
        obtain ⟨_, _, rest⟩ := of_bind_eq_ok named
        obtain ⟨vs, items, _⟩ := of_bind_eq_ok rest
        exact ⟨vs, items⟩
  obtain ⟨vs, items⟩ := members
  obtain ⟨v, required, _⟩ := of_bind_eq_ok items
  rw [Fields.required] at required
  split at required
  next found => simp [hasKey, Fields.lookup?_of_get? found]
  next => cases required

/-- A literal that is an object has a tag. -/
theorem Literal.hasKey_of_check {entries : List (String × Json)}
    (accepted : Node.literal.check (.object entries) = .ok ()) :
    ∃ tag ∈ tags, hasKey tag entries = true := by
  obtain ⟨l, tagged⟩ := verdict_eq_ok.mp accepted
  obtain ⟨known, tag, s, text, _⟩ := of_decodeTagged tagged
  exact ⟨tag, known _ (mem_of_lookup? text), by simp [hasKey, text]⟩

namespace Place

variable {p : Place} {n : Node} {key : String} {entries : List (String × Json)}

/-- Where a key decides between two nodes, another key makes no difference to the one that has it,
and the object that gets it keeps a key that the other node does not allow. -/
theorem refuses_unknown_of_switch {switch : String} {yes no : Node} (x : Json)
    (mark : no.check (.object entries) = .ok () →
      ∃ k, hasKey k entries = true ∧ k ∉ yes.keys)
    (chosen : (if hasKey switch entries then yes else no) = n)
    (accepted : n.check (.object entries) = .ok ()) (unknown : key ∉ n.keys) :
    ((if hasKey switch (insertEntry key x entries) then yes else no).check
      (.object (insertEntry key x entries))).RefusesAt [] := by
  have there : hasKey key (insertEntry key x entries) = true := by
    rw [hasKey_insertEntry]
    simp
  by_cases before : hasKey switch entries = true
  · rw [if_pos before] at chosen
    rw [hasKey_insertEntry, before, Bool.or_true, if_pos rfl, chosen]
    exact Node.refuses_unknown there unknown
  · rw [if_neg before] at chosen
    split
    next =>
      obtain ⟨k, old, foreign⟩ := mark (chosen ▸ accepted)
      refine Node.refuses_unknown ?_ foreign
      rw [hasKey_insertEntry, old, Bool.or_true]
    next =>
      rw [chosen]
      exact Node.refuses_unknown there unknown

/-- One key too many, and an accepted object is refused as a whole. -/
theorem refuses_unknown (x : Json) (stands : p.node? entries = some n)
    (accepted : n.check (.object entries) = .ok ()) (unknown : key ∉ n.keys) :
    (p.check (.object (insertEntry key x entries))).RefusesAt [] := by
  have group : Node.group.check (.object entries) = .ok () →
      ∃ k, hasKey k entries = true ∧ k ∉ Node.condition.keys :=
    fun accepted => ⟨"conditions", Group.hasKey_of_check accepted, by decide⟩
  have literal : Node.literal.check (.object entries) = .ok () →
      ∃ k, hasKey k entries = true ∧ k ∉ Node.call.keys := by
    intro accepted
    obtain ⟨tag, known, there⟩ := Literal.hasKey_of_check accepted
    refine ⟨tag, there, fun mem => ?_⟩
    simp only [Literal.tags, Node.keys, List.mem_cons, List.not_mem_nil, or_false] at known mem
    rcases mem with rfl | rfl <;> simp at known
  cases p with
  | node m =>
      cases stands
      refine Node.refuses_unknown ?_ unknown
      rw [hasKey_insertEntry]
      simp
  | predicate =>
      rw [check_object rfl]
      exact refuses_unknown_of_switch x group (Option.some.inj stands) accepted unknown
  | argument =>
      rw [check_object rfl]
      exact refuses_unknown_of_switch x literal (Option.some.inj stands) accepted unknown
  | operand =>
      rw [check_object rfl]
      exact refuses_unknown_of_switch x literal (Option.some.inj stands) accepted unknown
  | text => cases stands
  | list item => cases stands
  | declarations => cases stands

/-- A place that a configuration can have inside other parts: neither a configuration nor the object
that declares its parameters stands there. -/
def Inner : Place → Prop
  | .node .configuration | .declarations => False
  | .list item => item.Inner
  | _ => True

theorem inner_part_of_node {n : Node} (other : n ≠ .configuration) (key : String) :
    (n.part key).Inner := by
  unfold Node.part
  split <;> first | exact trivial | exact absurd rfl other

/-- Whatever stands in an inner place, or in the object that declares the parameters, is inner. -/
theorem inner_part {v : Json} {step : Step} (inner : p.Inner ∨ p = .declarations) :
    (p.part v step).Inner := by
  unfold part
  split
  next entries name =>
    cases stands : p.node? entries with
    | none => trivial
    | some n =>
        refine inner_part_of_node ?_ name
        rintro rfl
        cases p with
        | node m =>
            cases stands
            rcases inner with inner | declares
            · exact inner
            · cases declares
        | predicate | argument | operand =>
            rw [node?, Option.some.injEq] at stands
            split at stands <;> cases stands
        | text | list item | declarations => cases stands
  next =>
    split
    next item =>
      rcases inner with inner | declares
      · exact inner
      · cases declares
    next => trivial

theorem along_ne_declarations {v : Json} {steps : List Step} (inner : p.Inner) :
    p.along v steps ≠ .declarations := by
  induction steps generalizing p v with
  | nil =>
      rintro rfl
      exact inner
  | cons step steps ih =>
      rw [along]
      split
      · exact ih (inner_part (.inl inner))
      · intro declares
        cases declares

/-- What stands in a part of a configuration is inner, except under the key for parameters. -/
theorem part_configuration (v : Json) (step : Step) :
    (step = .key "parameters" ∧ (node .configuration).part v step = .declarations) ∨
      ((node .configuration).part v step).Inner := by
  cases step with
  | index i => cases v <;> exact .inr trivial
  | key name =>
      cases v with
      | object entries =>
          show (_ ∧ Node.configuration.part name = _) ∨ (Node.configuration.part name).Inner
          unfold Node.part
          split <;> first | exact .inr trivial | exact .inl ⟨rfl, rfl⟩
      | _ => exact .inr trivial

/-- Parameters are declared in one object only. -/
theorem eq_of_along_eq_declarations {v : Json} {steps : List Step}
    (declares : (node .configuration).along v steps = .declarations) :
    steps = [.key "parameters"] := by
  cases steps with
  | nil => cases declares
  | cons step steps =>
      rw [along] at declares
      split at declares
      next w _ =>
        rcases part_configuration v step with ⟨rfl, parameters⟩ | inner
        · cases steps with
          | nil => rfl
          | cons next steps =>
              rw [along] at declares
              split at declares
              · exact absurd declares (along_ne_declarations (inner_part (.inr parameters)))
              · cases declares
        · exact absurd declares (along_ne_declarations inner)
      next => cases declares

end Place

/-- The node that the object at the end of some steps into a configuration stands for. -/
def Json.nodeAt? (d : Json) (steps : List Step) : Option Node :=
  match d.walk? steps with
  | some (.object entries) => ((Place.node .configuration).along d steps).node? entries
  | _ => none

/-- If a document is accepted as a configuration, then each object in it but the one that declares
the parameters is that of a node, and with one more key, which the node does not have, the document
is refused at this object. -/
theorem Configuration.ofDocument_insertEntry {d : Json} {c : Configuration}
    (accepted : ofDocument d = .ok c) {steps : List Step} {entries : List (String × Json)}
    (found : d.walk? steps = some (.object entries)) (other : steps ≠ [.key "parameters"]) :
    ∃ node, d.nodeAt? steps = some node ∧ node.check (.object entries) = .ok () ∧
      ∀ key ∉ node.keys, ∀ v, ∃ cause,
        ofDocument (d.replace steps (.object (insertEntry key v entries))) =
          .error (.document (locationText documentRoot steps) cause) := by
  have whole : (Place.node .configuration).check d = .ok () := by
    rw [ofDocument] at accepted
    cases decoded : decode d with
    | ok a => exact verdict_eq_ok.mpr ⟨a, decoded⟩
    | error failure =>
        rw [decoded] at accepted
        cases accepted
  obtain ⟨inside, refused⟩ := Place.receives_along whole found id
  have stands : ∃ node, ((Place.node .configuration).along d steps).node? entries = some node := by
    cases place : (Place.node .configuration).along d steps with
    | declarations => exact absurd (Place.eq_of_along_eq_declarations place) other
    | text =>
        rw [place] at inside
        cases inside
    | list item =>
        rw [place] at inside
        cases inside
    | _ => exact ⟨_, rfl⟩
  obtain ⟨node, stands⟩ := stands
  rw [Place.check_object stands] at inside
  refine ⟨node, ?_, inside, fun key unknown v => ?_⟩
  · rw [Json.nodeAt?, found]
    exact stands
  · obtain ⟨cause, failed⟩ := refusesAt_verdict.mp
      (refused id (Place.refuses_unknown v stands inside unknown))
    refine ⟨cause, ?_⟩
    rw [List.append_nil] at failed
    rw [ofDocument, failed]
    rfl

/-- An operator put into the group of watched payments makes it a condition, which is refused where
the group stands. -/
theorem ofDocument_watchedMonths_insertEntry :
    Configuration.ofDocument watchedMonths.encode = .ok watchedMonths ∧
      ∃ entries,
        watchedMonths.encode.walk? [.key "conditions", .key "where", .index 0] =
          some (.object entries) ∧
        hasKey "operator" entries = false ∧ ∀ v,
          let changed := watchedMonths.encode.replace [.key "conditions", .key "where", .index 0]
            (.object (insertEntry "operator" v entries))
          changed.walk? [.key "conditions", .key "where", .index 0] =
            some (.object (insertEntry "operator" v entries)) ∧
          ∃ cause, Configuration.ofDocument changed =
            .error (.document "$.conditions.where[0]" cause) := by
  have accepted : Configuration.ofDocument watchedMonths.encode = .ok watchedMonths := by
    rw [Configuration.ofDocument, watchedMonths_built.decode_encode watchedMonths_storable
      watchedMonths_keepsDefault]
    rfl
  have found : ∃ entries,
      watchedMonths.encode.walk? [.key "conditions", .key "where", .index 0] =
        some (.object entries) ∧ hasKey "operator" entries = false := ⟨_, rfl, rfl⟩
  obtain ⟨entries, found, fresh⟩ := found
  refine ⟨accepted, entries, found, fresh, fun v => ⟨Json.walk?_replace found _, ?_⟩⟩
  obtain ⟨node, stands, _, refused⟩ :=
    Configuration.ofDocument_insertEntry accepted found (by decide)
  have group : watchedMonths.encode.nodeAt? [.key "conditions", .key "where", .index 0] =
      some .group := by decide +kernel
  cases stands.symm.trans group
  exact refused "operator" (by decide) v

end RuleQuery
