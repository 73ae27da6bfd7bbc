/-
# What stands where in the document of a configuration

The document of a configuration is a tree of nodes. Each node is an object with keys of its own, and
under each key stands a part of a certain kind: a node, a list, a text, or one of several nodes that
are told apart by a key of the object itself. `Place` names these kinds, `Node.part` says what
stands under a key, and `Place.part` what stands in any part of a document that stands in some
place.

The main result is about one part of a document that is accepted. The part is accepted in its own
place, and if another one that is refused is put there instead, then the whole is refused at the
same spot, seen through the step to the part. From one step this goes on to any number of steps.

Only parts that are arrays or objects are spoken of. A text may stand in the place of a call, so
what a place says of scalars is not what a decoder does with them.
-/

import RuleQuery.Proofs.Document.Entries

namespace RuleQuery

open Decoded

/-! ## Replacing a part -/

/-- Put another value under a key that is there. -/
def setEntry (name : String) (w : Json) (entries : List (String × Json)) : List (String × Json) :=
  entries.map fun e => if e.1 = name then (name, w) else e

theorem lookup?_setEntry (key name : String) (w : Json) (entries : List (String × Json)) :
    lookup? key (setEntry name w entries) =
      if key = name then (lookup? key entries).map fun _ => w else lookup? key entries := by
  induction entries with
  | nil => simp [setEntry, lookup?]
  | cons e rest ih =>
      obtain ⟨k, v⟩ := e
      rw [setEntry] at ih
      rw [setEntry, List.map_cons, lookup?]
      by_cases here : k = name
      · by_cases same : key = name
        · simp [lookup?, here, same]
        · simp [lookup?, here, same, Ne.symm same, ih]
      · by_cases found : k = key
        · have other : key ≠ name := found ▸ here
          simp [lookup?, found, other]
        · simp [lookup?, here, found, ih]

theorem map_fst_setEntry (name : String) (w : Json) (entries : List (String × Json)) :
    (setEntry name w entries).map Prod.fst = entries.map Prod.fst := by
  rw [setEntry, List.map_map]
  refine List.map_congr_left fun e _ => ?_
  rw [Function.comp_apply]
  split
  next same => exact same.symm
  next => rfl

theorem hasKey_setEntry (key name : String) (w : Json) (entries : List (String × Json)) :
    hasKey key (setEntry name w entries) = hasKey key entries := by
  rw [hasKey, hasKey, lookup?_setEntry]
  split <;> simp

namespace Json

/-- Put another value where one step leads to. -/
def setPart : Json → Step → Json → Json
  | .object entries, .key name, w => .object (setEntry name w entries)
  | .array items, .index i, w => .array (items.set i w)
  | v, _, _ => v

/-- Put another value where a sequence of steps leads to. -/
def replace (v : Json) : List Step → Json → Json
  | [], w => w
  | step :: steps, w =>
    match v.step? step with
    | some u => v.setPart step (u.replace steps w)
    | none => v

/-- What has parts is not a scalar. -/
theorem not_isScalar_of_step? {v w : Json} {step : Step} (found : v.step? step = some w) :
    ¬ v.IsScalar := by
  cases v <;> first | exact id | cases found

/-- The part that was put there is found. -/
theorem step?_setPart {v x : Json} {step : Step} (found : v.step? step = some x) (w : Json) :
    (v.setPart step w).step? step = some w := by
  cases v <;> cases step <;> simp only [step?, reduceCtorEq] at found
  case array.index items i =>
    have inside : i < items.length := (List.getElem?_eq_some_iff.mp found).1
    rw [setPart, step?, List.getElem?_set_self inside]
  case object.key entries name =>
    rw [setPart, step?, lookup?_setEntry, if_pos rfl, found, Option.map_some]

/-- The value that was put at the end of some steps is found there. -/
theorem walk?_replace {v u : Json} {steps : List Step} (found : v.walk? steps = some u)
    (w : Json) : (v.replace steps w).walk? steps = some w := by
  induction steps generalizing v with
  | nil => rfl
  | cons step steps ih =>
      obtain ⟨x, first, rest⟩ := Option.bind_eq_some_iff.mp found
      rw [replace, first, walk?, step?_setPart first, Option.bind_some, ih rest]

theorem isScalar_setPart (v : Json) (step : Step) (w : Json) :
    (v.setPart step w).IsScalar ↔ v.IsScalar := by
  cases v <;> cases step <;> exact .rfl

end Json

/-! ## Verdicts -/

namespace Decoded

variable {α β : Type}

/-- Whether a document is accepted, and if not, why. -/
def verdict (d : Decoded α) : Decoded Unit := d.map fun _ => ()

/-- The document is refused at the end of the given steps. -/
def RefusesAt (d : Decoded α) (steps : List Step) : Prop :=
  ∃ cause, d = .error (.mismatch steps cause)

theorem verdict_eq_ok {d : Decoded α} : d.verdict = .ok () ↔ ∃ a, d = .ok a := by
  cases d with
  | ok a => exact ⟨fun _ => ⟨a, rfl⟩, fun _ => rfl⟩
  | error failure => exact ⟨nofun, nofun⟩

theorem refusesAt_map {d : Decoded α} {f : α → β} {steps : List Step} :
    RefusesAt (d.map f) steps ↔ RefusesAt d steps := by
  cases d with
  | ok a => exact ⟨nofun, nofun⟩
  | error failure =>
      constructor
      · rintro ⟨cause, refused⟩
        cases refused
        exact ⟨cause, rfl⟩
      · rintro ⟨cause, refused⟩
        cases refused
        exact ⟨cause, rfl⟩

theorem refusesAt_verdict {d : Decoded α} {steps : List Step} :
    d.verdict.RefusesAt steps ↔ d.RefusesAt steps :=
  refusesAt_map

theorem verdict_map (d : Decoded α) (f : α → β) : verdict (d.map f) = d.verdict := by
  cases d <;> rfl

theorem refusesAt_refuse (cause : Mismatch) : (refuse cause : Decoded α).RefusesAt [] :=
  ⟨cause, rfl⟩

theorem eq_nil_of_refusesAt_refuse {cause : Mismatch} {steps : List Step}
    (refused : (refuse cause : Decoded α).RefusesAt steps) : steps = [] := by
  obtain ⟨other, same⟩ := refused
  cases same
  rfl

theorem RefusesAt.bind {d : Decoded α} {steps : List Step} (refused : d.RefusesAt steps)
    (f : α → Decoded β) : (d >>= f).RefusesAt steps := by
  obtain ⟨cause, rfl⟩ := refused
  exact ⟨cause, rfl⟩

theorem RefusesAt.within {d : Decoded α} {steps : List Step} (refused : d.RefusesAt steps)
    (step : Step) : (within step d).RefusesAt (step :: steps) := by
  obtain ⟨cause, rfl⟩ := refused
  exact ⟨cause, rfl⟩

end Decoded

/-- An object with a key that is not allowed is refused as a whole. -/
theorem Fields.read_unknown (allowed : List String) {key : String}
    {entries : List (String × Json)} (there : hasKey key entries = true)
    (unknown : key ∉ allowed) : ∃ cause, Fields.read allowed (.object entries) = refuse cause := by
  rw [hasKey, lookup?_isSome, List.mem_map] at there
  obtain ⟨e, mem, rfl⟩ := there
  rw [Fields.read]
  split
  next first _ => exact ⟨.unknownKey first.1, rfl⟩
  next none_ => exact absurd (by simpa using List.find?_eq_none.mp none_ e mem) unknown

/-! ## Nodes and places -/

/-- The nodes that are written as objects. -/
inductive Node
  | configuration
  | select
  | selectField
  | table
  | join
  | whereClause
  | condition
  | group
  | call
  | literal
  | parameter
  deriving DecidableEq

/-- What may stand in a place of a document. -/
inductive Place
  | text
  | node (n : Node)
  | predicate
  | argument
  | operand
  | list (item : Place)
  | declarations
  deriving DecidableEq

namespace Node

/-- The keys that the object of a node may have. -/
def keys : Node → List String
  | .configuration => Configuration.keys
  | .select => ["fields"]
  | .selectField => ["expression", "alias"]
  | .table => ["name", "alias"]
  | .join => ["type", "table", "alias", "on", "use_as"]
  | .whereClause => ["where"]
  | .condition => ["field", "operator", "value"]
  | .group => ["logical_operator", "conditions"]
  | .call => ["function", "args"]
  | .literal => Literal.tags
  | .parameter => ["type", "required", "default", "description", "values"]

/-- Whether a document is that of a node. -/
def check : Node → Json → Decoded Unit
  | .configuration, v => (Configuration.decode v).verdict
  | .select, v => (Select.decode v).verdict
  | .selectField, v => (SelectField.decode v).verdict
  | .table, v => (TableRef.decode v).verdict
  | .join, v => (Join.decode v).verdict
  | .whereClause, v => (WhereClause.decode v).verdict
  | .condition, v => (Condition.decode v).verdict
  | .group, v => (Group.decode v).verdict
  | .call, v => (Call.decode v).verdict
  | .literal, v => (Literal.decode v).verdict
  | .parameter, v => (Parameter.decode v).verdict

/-- What stands under a key of a node. Where nothing but scalars may stand it is a text. -/
def part : Node → String → Place
  | .configuration, "select" => .node .select
  | .configuration, "from_table" => .node .table
  | .configuration, "joins" => .list (.node .join)
  | .configuration, "conditions" => .node .whereClause
  | .configuration, "group_by" => .list .text
  | .configuration, "order_by" => .list .text
  | .configuration, "having" => .list (.node .condition)
  | .configuration, "parameters" => .declarations
  | .select, "fields" => .list (.node .selectField)
  | .selectField, "expression" => .node .call
  | .whereClause, "where" => .list .predicate
  | .condition, "field" => .node .call
  | .condition, "value" => .operand
  | .group, "conditions" => .list .predicate
  | .call, "args" => .list .argument
  | .parameter, "default" => .node .literal
  | .parameter, "values" => .list .text
  | _, _ => .text

end Node

namespace Place

/-- Whether a document may stand in a place. -/
def check : Place → Json → Decoded Unit
  | .text, v => (decodeString v).verdict
  | .node n, v => n.check v
  | .predicate, v => (Predicate.decode v).verdict
  | .argument, v => (Argument.decode v).verdict
  | .operand, v => (Operand.decode v).verdict
  | .list item, v => (array item.check v).verdict
  | .declarations, v => (Declarations.decode v).verdict

/-- The node that an object in a place stands for. Only the object that declares the parameters
stands for none. -/
def node? (entries : List (String × Json)) : Place → Option Node
  | .node n => some n
  | .predicate => some (if hasKey "operator" entries then .condition else .group)
  | .argument | .operand => some (if hasKey "function" entries then .call else .literal)
  | .text | .list _ | .declarations => none

/-- What stands in a part of a document that stands in a place. -/
def part (p : Place) : Json → Step → Place
  | .object entries, .key name =>
    match p.node? entries with
    | some n => n.part name
    | none => .node .parameter
  | _, _ =>
    match p with
    | .list item => item
    | _ => .node .literal

/-- What stands at the end of some steps into a document that stands in a place, if they lead to
something. -/
def along (p : Place) (v : Json) : List Step → Place
  | [] => p
  | step :: steps =>
    match v.step? step with
    | some w => (p.part v step).along w steps
    | none => .text

/-- An object is accepted in a place exactly as the node that it stands for there. -/
theorem check_object {p : Place} {n : Node} {entries : List (String × Json)}
    (stands : p.node? entries = some n) :
    p.check (.object entries) = n.check (.object entries) := by
  cases p with
  | node m =>
      cases stands
      rfl
  | predicate =>
      rw [check, Predicate.decode]
      cases key : hasKey "operator" entries <;> simp only [node?, key] at stands <;>
        cases stands <;> exact verdict_map _ _
  | argument =>
      rw [check, Argument.decode]
      cases key : hasKey "function" entries <;> simp only [node?, key] at stands <;>
        cases stands <;> exact verdict_map _ _
  | operand =>
      rw [check, Operand.decode]
      cases key : hasKey "function" entries <;> simp only [node?, key] at stands <;>
        cases stands <;> exact verdict_map _ _
  | text => cases stands
  | list item => cases stands
  | declarations => cases stands

/-- Of arrays and objects the place says what the decoder does: it accepts those that the decoder
accepts, and those that it refuses the decoder refuses at the same spot. -/
structure Governs {α : Type} (p : Place) (decode : Json → Decoded α) : Prop where
  accepts : ∀ {v}, ¬ v.IsScalar → (decode v).verdict = .ok () → p.check v = .ok ()
  refuses : ∀ {v steps}, ¬ v.IsScalar → (p.check v).RefusesAt steps → (decode v).RefusesAt steps

variable {α : Type} {p : Place} {decode : Json → Decoded α}

theorem governs_of_check (same : ∀ v, p.check v = (decode v).verdict) : p.Governs decode where
  accepts _ accepted := (same _).trans accepted
  refuses _ refused := refusesAt_verdict.mp (same _ ▸ refused)

theorem Governs.present (governs : p.Governs decode) : p.Governs (present decode) where
  accepts container accepted := governs.accepts container ((verdict_map _ _).symm.trans accepted)
  refuses container refused := refusesAt_map.mpr (governs.refuses container refused)

/-- A list is accepted as its items are. -/
theorem governs_array (same : ∀ v, p.check v = (decode v).verdict) :
    (list p).Governs (array decode) := by
  refine governs_of_check fun v => ?_
  have items (i : Nat) (vs : List Json) :
      (itemsFrom p.check i vs).verdict = (itemsFrom decode i vs).verdict := by
    induction vs generalizing i with
    | nil => rfl
    | cons w vs ih =>
        specialize ih (i + 1)
        rw [itemsFrom, itemsFrom, same w]
        cases decode w with
        | error failure => rfl
        | ok a =>
            cases first : itemsFrom p.check (i + 1) vs <;>
              cases second : itemsFrom decode (i + 1) vs <;> rw [first, second] at ih <;>
              cases ih <;> rfl
  cases v with
  | array vs => exact items 0 vs
  | _ => rfl

/-- Where a call or a text may stand, arrays and objects are those of a call. -/
theorem governs_call {f : Call → α}
    (object : ∀ entries, decode (.object entries) = (Call.decode (.object entries)).map f)
    (array : ∀ items, ∃ cause, decode (.array items) = refuse cause) :
    (node .call).Governs decode where
  accepts {v} container accepted := by
    cases v with
    | object entries =>
        rw [object, verdict_map] at accepted
        exact accepted
    | array items =>
        obtain ⟨cause, refused⟩ := array items
        rw [refused] at accepted
        cases accepted
    | _ => exact absurd trivial container
  refuses {v steps} container refused := by
    cases v with
    | object entries =>
        rw [object]
        exact refusesAt_map.mpr (refusesAt_verdict.mp refused)
    | array items =>
        obtain ⟨cause, same⟩ := array items
        have whole : (Call.decode (.array items)).RefusesAt steps := refusesAt_verdict.mp refused
        rw [same, eq_nil_of_refusesAt_refuse whole]
        exact refusesAt_refuse cause
    | _ => exact absurd trivial container

/-- The default of a parameter is a literal, whatever is then made of it. -/
theorem governs_decodeDefault (kind : ParameterKind) :
    (node .literal).Governs (Parameter.decodeDefault kind) where
  accepts _ accepted := by
    obtain ⟨default, made⟩ := verdict_eq_ok.mp accepted
    obtain ⟨l, read, _⟩ := of_bind_eq_ok made
    exact verdict_eq_ok.mpr ⟨l, read⟩
  refuses _ refused := (refusesAt_verdict.mp refused).bind _

/-- An item of a list of literals is a literal, and the object of a call is refused as such. -/
theorem governs_decodeItem : (node .literal).Governs Operand.decodeItem where
  accepts {v} container accepted := by
    cases v with
    | object entries =>
        rw [Operand.decodeItem] at accepted
        split at accepted
        · cases accepted
        · exact accepted
    | array items => cases accepted
    | _ => exact absurd trivial container
  refuses {v steps} container refused := by
    have literal : (Literal.decode v).RefusesAt steps := refusesAt_verdict.mp refused
    cases v with
    | object entries =>
        rw [Operand.decodeItem]
        split
        next call =>
          obtain ⟨cause, unknown⟩ := Fields.read_unknown Literal.tags call (by decide)
          rw [Literal.decode, Literal.decodeTagged, unknown] at literal
          rw [eq_nil_of_refusesAt_refuse literal]
          exact refusesAt_refuse _
        next => exact literal
    | array items =>
        rw [eq_nil_of_refusesAt_refuse literal]
        exact refusesAt_refuse _
    | _ => exact absurd trivial container

end Place

/-! ## One part of an accepted document -/

/-- A decoder that accepts a document hands its part over to a place: the part is accepted there,
and whatever is put instead of it and is refused there, is refused by the decoder at the part. -/
structure Place.Receives {α : Type} (q : Place) (decode : Json → Decoded α) (v : Json) (step : Step)
    (w : Json) : Prop where
  accepted : q.check w = .ok ()
  refused : ∀ {u steps}, ¬ u.IsScalar → (q.check u).RefusesAt steps →
    (decode (v.setPart step u)).RefusesAt (step :: steps)

/-- What a node says of the decoder under one of its keys. -/
def Node.Entry (n : Node) (β : Type) (key : String) (decode : Json → Decoded β) : Prop :=
  OfScalar decode ∨ (n.part key).Governs decode

namespace Fields

variable {α : Type} {n : Node} {entries : List (String × Json)} {name : String} {w : Json}

theorem get?_of_container {key : String} {v : Json} (container : ¬ v.IsScalar)
    (found : lookup? key entries = some v) : Fields.get? ⟨entries⟩ key = some v := by
  rw [get?, found]
  cases v <;> first | rfl | exact absurd trivial container

theorem entry_of_container {β : Type} {default : Option β} {decode : Json → Decoded β}
    (container : ¬ w.IsScalar) (found : lookup? name entries = some w) :
    Fields.entry ⟨entries⟩ name default decode = within (.key name) (decode w) := by
  unfold Fields.entry
  rw [get?_of_container container found]

/-- An entry is not affected by what is put under another key. -/
theorem entry_setEntry_of_ne {β : Type} {key : String} {default : Option β}
    {decode : Json → Decoded β} (other : key ≠ name) (u : Json) :
    Fields.entry ⟨setEntry name u entries⟩ key default decode =
      Fields.entry ⟨entries⟩ key default decode := by
  unfold Fields.entry get?
  rw [lookup?_setEntry, if_neg other]

/-- The entries of an object read one by one: one of them, an array or an object, is handed over to
its place. The entries that are read before are the same in both objects, so they do not fail. -/
theorem Reads.receives {keys : List String} {body : Fields → Decoded α} {a : α}
    (reads : Reads n.Entry keys body) (looked : name ∈ keys) (container : ¬ w.IsScalar)
    (found : lookup? name entries = some w) (accepted : body ⟨entries⟩ = .ok a) :
    (n.part name).check w = .ok () ∧ ∀ {u steps}, ¬ u.IsScalar →
      ((n.part name).check u).RefusesAt steps →
        (body ⟨setEntry name u entries⟩).RefusesAt (.key name :: steps) := by
  induction reads with
  | made r => cases looked
  | rule next ih =>
      obtain ⟨b, made, accepted⟩ := of_bind_eq_ok accepted
      obtain ⟨inside, refused⟩ := ih b looked accepted
      refine ⟨inside, fun other outside => ?_⟩
      rw [made]
      exact refused other outside
  | @entry β key keys default decode rest part next ih =>
      obtain ⟨b, made, accepted⟩ := of_bind_eq_ok accepted
      by_cases here : name = key
      · subst here
        rw [entry_of_container container found] at made
        have read := of_within_eq_ok made
        rcases part with scalar | governs
        · rcases scalar w with ⟨cause, refused⟩ | ⟨single, _⟩
          · cases refused.symm.trans read
          · exact absurd single container
        · refine ⟨governs.accepts container (verdict_eq_ok.mpr ⟨b, read⟩),
            fun {u _} other outside => ?_⟩
          have put : lookup? name (setEntry name u entries) = some u := by
            rw [lookup?_setEntry, if_pos rfl, found, Option.map_some]
          show (Fields.entry ⟨setEntry name u entries⟩ name default decode >>= fun b =>
            rest b ⟨setEntry name u entries⟩).RefusesAt _
          rw [entry_of_container other put]
          exact ((governs.refuses other outside).within _).bind _
      · obtain ⟨inside, refused⟩ := ih b ((List.mem_cons.mp looked).resolve_left here) accepted
        refine ⟨inside, fun {u _} other outside => ?_⟩
        show (Fields.entry ⟨setEntry name u entries⟩ key default decode >>= fun b =>
          rest b ⟨setEntry name u entries⟩).RefusesAt _
        rw [entry_setEntry_of_ne (Ne.symm here), made]
        exact refused other outside

/-- The keys of an object stay allowed when a value is replaced. -/
theorem read_setEntry {allowed : List String} (u : Json)
    (known : ∀ e ∈ entries, e.1 ∈ allowed) :
    Fields.read allowed (.object (setEntry name u entries)) = .ok ⟨setEntry name u entries⟩ := by
  rw [Fields.read]
  split
  next e found =>
    have mem := List.mem_of_find?_eq_some found
    have unknown := List.find?_some found
    have old : e.1 ∈ entries.map Prod.fst := by
      rw [← map_fst_setEntry name u]
      exact List.mem_map_of_mem mem
    obtain ⟨first, there, same⟩ := List.mem_map.mp old
    have allowed_ := known first there
    rw [same] at allowed_
    simp [allowed_] at unknown
  next => rfl

/-- The decoder of a node hands over every part that is an array or an object. -/
theorem ReadsObject.receives {decode : Json → Decoded α} {a : α}
    (reads : ReadsObject n.Entry n.keys decode) (container : ¬ w.IsScalar)
    (found : lookup? name entries = some w) (accepted : decode (.object entries) = .ok a) :
    (n.part name).Receives decode (.object entries) (.key name) w := by
  obtain ⟨keys, body, looked, entryWise, decode_eq⟩ := reads
  rw [decode_eq] at accepted
  obtain ⟨fs, read, made⟩ := of_bind_eq_ok accepted
  obtain ⟨same, allowed⟩ := of_read read
  cases same
  obtain ⟨inside, refused⟩ := entryWise.receives
    (looked (allowed (name, w) (mem_of_lookup? found))) container found made
  refine ⟨inside, fun other outside => ?_⟩
  rw [Json.setPart, decode_eq, read_setEntry _ allowed]
  exact refused other outside

end Fields

/-- Each node but the literal is read by a decoder of objects, with what the node says stands under
its keys. -/
theorem Node.reads {n : Node} (other : n ≠ .literal) :
    ∃ (α : Type) (decode : Json → Decoded α),
      (∀ v, n.check v = (decode v).verdict) ∧ Fields.ReadsObject n.Entry n.keys decode := by
  have scalar {n : Node} {β : Type} {key : String} {decode : Json → Decoded β}
      (single : OfScalar decode) : n.Entry β key decode := .inl single
  cases n with
  | configuration =>
      exact ⟨_, Configuration.decode, fun _ => rfl, Configuration.readsObject
        (.inr (Place.governs_of_check fun _ => rfl)) (.inr (Place.governs_of_check fun _ => rfl))
        (.inr (Place.governs_array fun _ => rfl)) (.inr (Place.governs_of_check fun _ => rfl))
        (.inr (Place.governs_array fun _ => rfl)) (.inr (Place.governs_array fun _ => rfl))
        (.inr (Place.governs_array fun _ => rfl)) (.inr (Place.governs_of_check fun _ => rfl))⟩
  | select =>
      exact ⟨_, Select.decode, fun _ => rfl,
        Select.readsObject (.inr (Place.governs_array fun _ => rfl))⟩
  | selectField =>
      exact ⟨_, SelectField.decode, fun _ => rfl, SelectField.readsObject scalar
        (.inr (Place.governs_call (fun _ => rfl) fun _ => ⟨_, rfl⟩))⟩
  | table => exact ⟨_, TableRef.decode, fun _ => rfl, TableRef.readsObject scalar⟩
  | join => exact ⟨_, Join.decode, fun _ => rfl, Join.readsObject scalar⟩
  | whereClause =>
      exact ⟨_, WhereClause.decode, fun _ => rfl,
        WhereClause.readsObject (.inr (Place.governs_array fun _ => rfl))⟩
  | condition =>
      exact ⟨_, Condition.decode, fun _ => rfl, Condition.readsObject scalar
        (.inr (Place.governs_call (fun _ => rfl) fun _ => ⟨_, rfl⟩))
        (.inr (Place.governs_of_check fun _ => rfl))⟩
  | group =>
      exact ⟨_, Group.decode, fun _ => rfl, Group.readsObject scalar
        (.inr (Place.governs_array fun _ => rfl))⟩
  | call =>
      exact ⟨_, Call.decode, fun _ => rfl, Call.readsObject scalar
        (.inr (Place.governs_array fun _ => rfl))⟩
  | literal => exact absurd rfl other
  | parameter =>
      exact ⟨_, Parameter.decode, fun _ => rfl, Parameter.readsObject scalar
        (fun kind => .inr (Place.governs_decodeDefault kind).present)
        (.inr (Place.governs_array fun _ => rfl).present)⟩

/-- A literal with a tag is the object of a single text. -/
theorem Literal.of_decodeTagged {entries : List (String × Json)} {l : Literal}
    (accepted : decodeTagged (.object entries) = .ok l) :
    (∀ e ∈ entries, e.1 ∈ tags) ∧ ∃ tag s, lookup? tag entries = some (.string s) ∧
      (tags.filter fun tag => (Fields.get? ⟨entries⟩ tag).isSome) = [tag] := by
  obtain ⟨fs, read, tagged⟩ := of_bind_eq_ok accepted
  obtain ⟨same, allowed⟩ := Fields.of_read read
  cases same
  refine ⟨allowed, ?_⟩
  split at tagged
  next tag only =>
    obtain ⟨text, given, _⟩ := of_bind_eq_ok tagged
    rw [Fields.string_eq] at given
    unfold Fields.entry at given
    split at given
    next v found =>
      have string := of_within_eq_ok given
      cases v with
      | string s => exact ⟨tag, s, Fields.lookup?_of_get? found, only⟩
      | _ => cases string
    next => cases given
  next => cases tagged

/-- A literal has no parts that are arrays or objects. -/
theorem Literal.isScalar_of_decodeTagged {entries : List (String × Json)} {l : Literal}
    {name : String} {w : Json} (accepted : decodeTagged (.object entries) = .ok l)
    (found : lookup? name entries = some w) : w.IsScalar := by
  obtain ⟨known, tag, s, text, only⟩ := of_decodeTagged accepted
  refine Classical.byContradiction fun container => ?_
  have given := Fields.get?_of_container container found
  have mem : name ∈ tags.filter fun tag => (Fields.get? ⟨entries⟩ tag).isSome :=
    List.mem_filter.mpr ⟨known (name, w) (mem_of_lookup? found), by simp [given]⟩
  rw [only, List.mem_singleton] at mem
  rw [mem, text] at found
  cases found
  exact container trivial

/-- A node hands over each of its parts. -/
theorem Node.receives {n : Node} {entries : List (String × Json)} {name : String} {w : Json}
    (accepted : n.check (.object entries) = .ok ()) (container : ¬ w.IsScalar)
    (found : lookup? name entries = some w) :
    (n.part name).Receives n.check (.object entries) (.key name) w := by
  by_cases literal : n = .literal
  · subst literal
    obtain ⟨l, tagged⟩ := verdict_eq_ok.mp accepted
    exact absurd (Literal.isScalar_of_decodeTagged tagged found) container
  · obtain ⟨α, decode, same, reads⟩ := Node.reads literal
    rw [same] at accepted
    obtain ⟨a, accepted⟩ := verdict_eq_ok.mp accepted
    obtain ⟨inside, refused⟩ := reads.receives container found accepted
    refine ⟨inside, fun other outside => ?_⟩
    rw [same]
    exact refusesAt_verdict.mpr (refused other outside)

/-- An array whose items are accepted hands over each of them. -/
theorem Decoded.itemsFrom_receives {α : Type} {decode : Json → Decoded α} {q : Place}
    {start i : Nat} {vs : List Json} {w : Json} {as : List α} (governs : q.Governs decode)
    (container : ¬ w.IsScalar) (found : vs[i]? = some w)
    (accepted : itemsFrom decode start vs = .ok as) :
    q.check w = .ok () ∧ ∀ {u steps}, ¬ u.IsScalar → (q.check u).RefusesAt steps →
      (itemsFrom decode start (vs.set i u)).RefusesAt (.index (start + i) :: steps) := by
  induction vs generalizing i start as with
  | nil => cases found
  | cons v vs ih =>
      obtain ⟨a, first, rest⟩ := of_bind_eq_ok accepted
      cases i with
      | zero =>
          cases found
          have read := of_within_eq_ok first
          exact ⟨governs.accepts container (verdict_eq_ok.mpr ⟨a, read⟩),
            fun other outside => ((governs.refuses other outside).within _).bind _⟩
      | succ i =>
          obtain ⟨as, later, _⟩ := of_bind_eq_ok rest
          obtain ⟨inside, refused⟩ := ih found later
          refine ⟨inside, fun other outside => ?_⟩
          have place : start + (i + 1) = start + 1 + i := by omega
          rw [List.set_cons_succ, itemsFrom, first, place]
          exact (refused other outside).bind _

theorem Place.receives_items {α : Type} {decode : Json → Decoded α} {q : Place} {i : Nat}
    {vs : List Json} {w : Json} (governs : q.Governs decode) (container : ¬ w.IsScalar)
    (found : vs[i]? = some w) (accepted : (items decode vs).verdict = .ok ()) :
    q.Receives (fun v => (array decode v).verdict) (.array vs) (.index i) w := by
  obtain ⟨as, accepted⟩ := verdict_eq_ok.mp accepted
  obtain ⟨inside, refused⟩ := itemsFrom_receives governs container found accepted
  refine ⟨inside, fun {u steps} other outside => refusesAt_verdict.mpr ?_⟩
  have at_ := refused other outside
  rw [Nat.zero_add] at at_
  exact at_

/-- The object that declares the parameters hands over each of them. -/
theorem Declarations.receives {entries : List (String × Json)} {name : String} {w : Json}
    {declared result : Declarations} (found : lookup? name entries = some w)
    (accepted : decodeEntries declared entries = .ok result) :
    (Place.node .parameter).check w = .ok () ∧ ∀ {u steps},
      ((Place.node .parameter).check u).RefusesAt steps →
        (decodeEntries declared (setEntry name u entries)).RefusesAt (.key name :: steps) := by
  induction entries generalizing declared with
  | nil => cases found
  | cons e rest ih =>
      obtain ⟨k, v⟩ := e
      obtain ⟨p, first, later⟩ := of_bind_eq_ok accepted
      rw [lookup?] at found
      by_cases here : k = name
      · rw [if_pos here] at found
        cases found
        refine ⟨verdict_eq_ok.mpr ⟨p, of_within_eq_ok first⟩, fun outside => ?_⟩
        rw [setEntry, List.map_cons, if_pos here]
        exact ((refusesAt_verdict.mp outside).within _).bind _
      · rw [if_neg here] at found
        obtain ⟨inside, refused⟩ := ih found later
        refine ⟨inside, fun outside => ?_⟩
        rw [setEntry, List.map_cons, if_neg here, decodeEntries, first]
        exact refused outside

namespace Place

variable {p : Place} {v w : Json} {step : Step}

/-- A place hands over each part of a document that is accepted in it. -/
theorem receives (accepted : p.check v = .ok ()) (found : v.step? step = some w)
    (container : ¬ w.IsScalar) : (p.part v step).Receives p.check v step w := by
  cases v <;> cases step <;> simp only [Json.step?, reduceCtorEq] at found
  case object.key entries name =>
    cases stands : p.node? entries with
    | some n =>
        rw [check_object stands] at accepted
        obtain ⟨inside, refused⟩ := n.receives accepted container found
        rw [part, stands]
        refine ⟨inside, fun {u _} other outside => ?_⟩
        have still : p.node? (setEntry name u entries) = some n := by
          rw [← stands]
          cases p <;> simp only [node?, hasKey_setEntry]
        rw [Json.setPart, check_object still]
        exact refused other outside
    | none =>
        cases p with
        | declarations =>
            obtain ⟨declared, decoded⟩ := verdict_eq_ok.mp accepted
            obtain ⟨inside, refused⟩ := Declarations.receives found decoded
            exact ⟨inside, fun _ outside => refusesAt_verdict.mpr (refused outside)⟩
        | text => cases accepted
        | list item => cases accepted
        | _ => cases stands
  case array.index vs i =>
    cases p with
    | list item =>
        have self : item.Governs item.check :=
          governs_of_check fun v => by cases item.check v <;> rfl
        exact receives_items self container found accepted
    | operand =>
        have items : (items Operand.decodeItem vs).verdict = .ok () :=
          (verdict_map _ _).symm.trans accepted
        obtain ⟨inside, refused⟩ := receives_items governs_decodeItem container found items
        refine ⟨inside, fun {u steps} other outside => ?_⟩
        rw [check, Json.setPart, Operand.decode, verdict_map]
        exact refused other outside
    | node n => cases n <;> cases accepted
    | predicate => cases accepted
    | argument => cases accepted
    | text => cases accepted
    | declarations => cases accepted

/-- The same of what any number of steps leads to, by induction on the steps. -/
theorem receives_along {steps : List Step} (accepted : p.check v = .ok ())
    (found : v.walk? steps = some w) (container : ¬ w.IsScalar) :
    (p.along v steps).check w = .ok () ∧ ∀ {u more}, ¬ u.IsScalar →
      ((p.along v steps).check u).RefusesAt more →
        (p.check (v.replace steps u)).RefusesAt (steps ++ more) := by
  induction steps generalizing p v with
  | nil =>
      cases found
      exact ⟨accepted, fun _ outside => outside⟩
  | cons step steps ih =>
      obtain ⟨x, first, rest⟩ := Option.bind_eq_some_iff.mp found
      have inner : ¬ x.IsScalar := by
        cases steps with
        | nil =>
            cases rest
            exact container
        | cons next steps =>
            obtain ⟨y, second, _⟩ := Option.bind_eq_some_iff.mp rest
            exact Json.not_isScalar_of_step? second
      have received := receives accepted first inner
      obtain ⟨inside, refused⟩ := ih received.accepted rest
      rw [along, first]
      refine ⟨inside, fun {u more} other outside => ?_⟩
      rw [Json.replace, first]
      refine received.refused ?_ (refused other outside)
      cases steps with
      | nil => exact other
      | cons next steps =>
          obtain ⟨y, second, _⟩ := Option.bind_eq_some_iff.mp rest
          rw [Json.replace, second]
          exact mt (Json.isScalar_setPart x next _).mp inner

end Place

end RuleQuery
