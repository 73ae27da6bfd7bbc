/-
# Where a document fails

A document that does not have the shape of a node is refused at a place inside it: the steps that
the failure names lead to a value that is there. This is so for every decoder, because each goes
into a part only along a step that exists and puts that step in front of the failure of the part.
Everything else a decoder refuses on the spot. So it is enough to see it of the shape that the
decoders of objects have in common, of the decoders of arrays, and of the few that choose between
others by looking at the document.

The text of the place where the document stands comes in at the very end. Nothing else that is
known of the outcome depends on it.
-/

import RuleQuery.Proofs.Document.Entries

namespace RuleQuery

open Decoded

/-- A part is smaller than what it is a part of. -/
theorem Json.sizeOf_lt_of_step? {v w : Json} {step : Step} (found : v.step? step = some w) :
    sizeOf w < sizeOf v := by
  cases v <;> cases step <;> simp only [Json.step?, reduceCtorEq] at found
  case array.index vs i =>
    have inside := List.sizeOf_lt_of_mem (List.mem_of_getElem? found)
    rw [Json.array.sizeOf_spec]
    omega
  case object.key es name =>
    have inside := List.sizeOf_lt_of_mem (mem_of_lookup? found)
    rw [Prod.mk.sizeOf_spec] at inside
    rw [Json.object.sizeOf_spec]
    omega

namespace Decoded

variable {α β : Type} {v w : Json}

/-- The document is refused, if at all, at a place that it has. -/
def PointsInto (v : Json) (d : Decoded α) : Prop :=
  ∀ steps cause, d = .error (.mismatch steps cause) → ∃ w, v.walk? steps = some w

theorem pointsInto_ok (a : α) : PointsInto v (.ok a) := nofun

theorem pointsInto_refuse (cause : Mismatch) : PointsInto v (refuse cause : Decoded α) := by
  intro steps other refused
  cases refused
  exact ⟨v, rfl⟩

theorem pointsInto_ofMade (r : Except Defect α) : PointsInto v (ofMade r) := by
  intro steps cause refused
  cases r <;> cases refused

theorem PointsInto.map {d : Decoded α} (points : PointsInto v d) (f : α → β) :
    PointsInto v (d.map f) := by
  intro steps cause refused
  cases d with
  | ok a => cases refused
  | error failure =>
      cases refused
      exact points steps cause rfl

theorem PointsInto.bind {d : Decoded α} {f : α → Decoded β} (points : PointsInto v d)
    (next : ∀ a, d = .ok a → PointsInto v (f a)) : PointsInto v (d >>= f) := by
  intro steps cause refused
  cases d with
  | ok a => exact next a rfl steps cause refused
  | error failure =>
      cases refused
      exact points steps cause rfl

/-- The failure of a part, seen from the whole, points to the same value. -/
theorem PointsInto.within {step : Step} {d : Decoded α} (found : v.step? step = some w)
    (points : PointsInto w d) : PointsInto v (within step d) := by
  intro steps cause refused
  cases d with
  | ok a => cases refused
  | error failure =>
      cases failure with
      | defect cause => cases refused
      | mismatch inner cause =>
          cases refused
          obtain ⟨x, reached⟩ := points inner cause rfl
          exact ⟨x, by rw [Json.walk?, found, Option.bind_some, reached]⟩

theorem OfScalar.pointsInto {decode : Json → Decoded α} (scalar : OfScalar decode) (v : Json) :
    PointsInto v (decode v) := by
  rcases scalar v with ⟨cause, refused⟩ | ⟨_, a, accepted⟩
  · rw [refused]
    exact pointsInto_refuse cause
  · rw [accepted]
    exact pointsInto_ok a

/-- A decoder that is given a part under some key points into that part. -/
def PointsIntoPart (v : Json) (β : Type) (key : String) (decode : Json → Decoded β) : Prop :=
  ∀ w, v.step? (.key key) = some w → PointsInto w (decode w)

/-- The items of an array are refused each at its own index. -/
theorem pointsInto_array {decode : Json → Decoded α} (v : Json)
    (each : ∀ i w, v.step? (.index i) = some w → PointsInto w (decode w)) :
    PointsInto v (array decode v) := by
  cases v with
  | array vs =>
      have from_ (i : Nat) (rest : List Json) (at_ : vs.drop i = rest) :
          PointsInto (.array vs) (itemsFrom decode i rest) := by
        induction rest generalizing i with
        | nil => exact pointsInto_ok []
        | cons w rest ih =>
            have found : (Json.array vs).step? (.index i) = some w := by
              rw [Json.step?, ← List.head?_drop, at_, List.head?_cons]
            have later : vs.drop (i + 1) = rest := by
              rw [← List.tail_drop, at_, List.tail_cons]
            exact ((each i w found).within found).bind fun a _ =>
              (ih (i + 1) later).bind fun as _ => pointsInto_ok (a :: as)
      exact from_ 0 vs rfl
  | _ => exact pointsInto_refuse _

end Decoded

namespace Fields

variable {α : Type}

/-- An entry is refused inside its value, and where it is missing at the object. -/
theorem pointsInto_entry {fs : Fields} {key : String} {default : Option α}
    {decode : Json → Decoded α} (part : PointsIntoPart (.object fs.entries) α key decode) :
    PointsInto (.object fs.entries) (fs.entry key default decode) := by
  unfold entry
  cases found : fs.get? key with
  | some w =>
      have there := lookup?_of_get? found
      exact (part w there).within there
  | none =>
      cases default with
      | some a => exact pointsInto_ok a
      | none => exact pointsInto_refuse _

theorem Reads.pointsInto {fs : Fields} {keys : List String} {body : Fields → Decoded α}
    (reads : Reads (PointsIntoPart (.object fs.entries)) keys body) :
    PointsInto (.object fs.entries) (body fs) := by
  induction reads with
  | made r => exact pointsInto_ofMade r
  | rule next ih => exact (pointsInto_ofMade _).bind fun b _ => ih b
  | entry part next ih => exact (pointsInto_entry part).bind fun b _ => ih b

/-- Reading the keys fails at the object itself. -/
theorem pointsInto_read (allowed : List String) (v : Json) :
    PointsInto v (Fields.read allowed v) := by
  cases v with
  | object entries =>
      rw [Fields.read]
      split
      · exact pointsInto_refuse _
      · exact pointsInto_ok _
  | _ => exact pointsInto_refuse _

/-- The decoder of an object points into it if the decoders of its parts point into them. -/
theorem ReadsObject.pointsInto {allowed : List String} {decode : Json → Decoded α} {v : Json}
    (reads : ReadsObject (PointsIntoPart v) allowed decode) : PointsInto v (decode v) := by
  obtain ⟨keys, body, _, entries, decode_eq⟩ := reads
  rw [decode_eq]
  refine (pointsInto_read allowed v).bind fun fs read => ?_
  obtain ⟨rfl, _⟩ := of_read read
  exact entries.pointsInto

end Fields

/-! ## The decoders of the nodes -/

theorem Literal.pointsInto_ofTag {v w : Json} {tag : String} (found : v.step? (.key tag) = some w)
    (text : String) : PointsInto v (ofTag tag text) := by
  unfold ofTag
  split
  · split
    · exact pointsInto_ok _
    · exact (pointsInto_refuse _).within found
  · split
    · exact pointsInto_ok _
    · exact (pointsInto_refuse _).within found
  · exact pointsInto_ok _

theorem Literal.pointsInto_decode (v : Json) : PointsInto v (decode v) := by
  cases v with
  | object entries =>
      rw [decode, decodeTagged]
      refine (Fields.pointsInto_read tags _).bind fun fs read => ?_
      obtain ⟨same, _⟩ := Fields.of_read read
      split
      next tag only =>
        have given : (fs.get? tag).isSome = true := by
          have mem : tag ∈ tags.filter fun tag => (fs.get? tag).isSome := by simp [only]
          exact (List.mem_filter.mp mem).2
        obtain ⟨w, found⟩ := Option.isSome_iff_exists.mp given
        have there : (Json.object fs.entries).step? (.key tag) = some w :=
          Fields.lookup?_of_get? found
        rw [same]
        refine PointsInto.bind ?_ fun text _ => pointsInto_ofTag there text
        rw [Fields.string_eq]
        exact Fields.pointsInto_entry fun w _ => ofScalar_string.pointsInto w
      next => exact pointsInto_refuse _
  | array items => exact pointsInto_refuse _
  | _ => exact pointsInto_ok _

theorem Call.pointsInto_decode_of_args {v : Json}
    (args : PointsIntoPart v _ "args" (array Argument.decode)) : PointsInto v (decode v) :=
  Fields.ReadsObject.pointsInto (readsObject (fun scalar w _ => scalar.pointsInto w) args)

/-- An argument is refused inside itself, by induction on its nesting. -/
theorem Argument.pointsInto_decode (v : Json) : PointsInto v (decode v) := by
  have call : PointsInto v (Call.decode v) :=
    Call.pointsInto_decode_of_args fun w found => pointsInto_array w fun i x inside =>
      have := Json.sizeOf_lt_of_step? found
      have := Json.sizeOf_lt_of_step? inside
      Argument.pointsInto_decode x
  cases v with
  | string s =>
      rw [decode]
      exact pointsInto_ok _
  | object entries =>
      rw [decode]
      split
      · exact call.map _
      · exact (Literal.pointsInto_decode _).map _
  | _ =>
      rw [decode]
      · exact (Literal.pointsInto_decode _).map _
      all_goals nofun
termination_by sizeOf v

theorem Call.pointsInto_decode (v : Json) : PointsInto v (decode v) :=
  pointsInto_decode_of_args fun w _ => pointsInto_array w fun _ x _ =>
    Argument.pointsInto_decode x

theorem Field.pointsInto_decode (v : Json) : PointsInto v (decode v) := by
  cases v with
  | string s => exact pointsInto_ok _
  | object entries => exact (Call.pointsInto_decode _).map _
  | _ => exact pointsInto_refuse _

theorem Selected.pointsInto_decode (v : Json) : PointsInto v (decode v) := by
  cases v with
  | string s => exact pointsInto_ok _
  | object entries => exact (Call.pointsInto_decode _).map _
  | _ => exact pointsInto_refuse _

theorem Operand.pointsInto_decodeItem (v : Json) : PointsInto v (decodeItem v) := by
  cases v with
  | array items => exact pointsInto_refuse _
  | object entries =>
      rw [decodeItem]
      split
      · exact pointsInto_refuse _
      · exact Literal.pointsInto_decode _
  | _ => exact Literal.pointsInto_decode _

theorem Operand.pointsInto_decode (v : Json) : PointsInto v (decode v) := by
  cases v with
  | array items =>
      exact (pointsInto_array (.array items) fun _ w _ => pointsInto_decodeItem w).map _
  | object entries =>
      rw [decode]
      split
      · exact (Call.pointsInto_decode _).map _
      · exact (Literal.pointsInto_decode _).map _
  | _ => exact (Literal.pointsInto_decode _).map _

theorem Condition.pointsInto_decode (v : Json) : PointsInto v (decode v) :=
  Fields.ReadsObject.pointsInto (readsObject (fun scalar w _ => scalar.pointsInto w)
    (fun w _ => Field.pointsInto_decode w) fun w _ => Operand.pointsInto_decode w)

theorem Group.pointsInto_decode_of_members {v : Json}
    (members : PointsIntoPart v _ "conditions" (array Predicate.decode)) :
    PointsInto v (decode v) :=
  Fields.ReadsObject.pointsInto (readsObject (fun scalar w _ => scalar.pointsInto w) members)

/-- A predicate is refused inside itself, by induction on its nesting. -/
theorem Predicate.pointsInto_decode (v : Json) : PointsInto v (decode v) := by
  have group : PointsInto v (Group.decode v) :=
    Group.pointsInto_decode_of_members fun w found => pointsInto_array w fun i x inside =>
      have := Json.sizeOf_lt_of_step? found
      have := Json.sizeOf_lt_of_step? inside
      Predicate.pointsInto_decode x
  cases v with
  | object entries =>
      rw [decode]
      split
      · exact (Condition.pointsInto_decode _).map _
      · exact group.map _
  | _ =>
      rw [decode]
      · exact pointsInto_refuse _
      all_goals nofun
termination_by sizeOf v

theorem Group.pointsInto_decode (v : Json) : PointsInto v (decode v) :=
  pointsInto_decode_of_members fun w _ => pointsInto_array w fun _ x _ =>
    Predicate.pointsInto_decode x

theorem WhereClause.pointsInto_decode (v : Json) : PointsInto v (decode v) :=
  Fields.ReadsObject.pointsInto (readsObject fun w _ => pointsInto_array w fun _ x _ =>
    Predicate.pointsInto_decode x)

theorem TableRef.pointsInto_decode (v : Json) : PointsInto v (decode v) :=
  Fields.ReadsObject.pointsInto (readsObject fun scalar w _ => scalar.pointsInto w)

theorem Join.pointsInto_decode (v : Json) : PointsInto v (decode v) :=
  Fields.ReadsObject.pointsInto (readsObject fun scalar w _ => scalar.pointsInto w)

theorem SelectField.pointsInto_decode (v : Json) : PointsInto v (decode v) :=
  Fields.ReadsObject.pointsInto (readsObject (fun scalar w _ => scalar.pointsInto w)
    fun w _ => Selected.pointsInto_decode w)

theorem Select.pointsInto_decode (v : Json) : PointsInto v (decode v) :=
  Fields.ReadsObject.pointsInto (readsObject fun w _ => pointsInto_array w fun _ x _ =>
    SelectField.pointsInto_decode x)

theorem Parameter.pointsInto_decodeDefault (kind : ParameterKind) (v : Json) :
    PointsInto v (decodeDefault kind v) := by
  refine (Literal.pointsInto_decode v).bind fun l _ => ?_
  split
  · split
    · exact pointsInto_ok _
    · split
      · exact pointsInto_ok _
      · exact pointsInto_refuse _
  · exact pointsInto_ok _

theorem Parameter.pointsInto_decode (v : Json) : PointsInto v (decode v) :=
  Fields.ReadsObject.pointsInto (readsObject (fun scalar w _ => scalar.pointsInto w)
    (fun kind w _ => (pointsInto_decodeDefault kind w).map _)
    fun w _ => (pointsInto_array w fun _ x _ => ofScalar_string.pointsInto x).map _)

/-- A declaration is refused under its own name; names do not repeat, as the object is in order. -/
theorem Declarations.pointsInto_decode {v : Json} (ordered : v.Ordered) :
    PointsInto v (decode v) := by
  cases v with
  | object entries =>
      have from_ (declared : Declarations) (rest : List (String × Json))
          (there : ∀ e ∈ rest, e ∈ entries) :
          PointsInto (.object entries) (decodeEntries declared rest) := by
        induction rest generalizing declared with
        | nil => exact pointsInto_ok declared
        | cons e rest ih =>
            obtain ⟨found, later⟩ := List.forall_mem_cons.mp there
            have step : (Json.object entries).step? (.key e.1) = some e.2 :=
              lookup?_of_mem ordered.entries.1 found
            exact ((Parameter.pointsInto_decode e.2).within step).bind fun p _ =>
              ih (declared.insert e.1 p) later
      exact from_ .empty entries fun _ mem => mem
  | _ => exact pointsInto_refuse _

theorem Configuration.pointsInto_decode {v : Json} (ordered : v.Ordered) :
    PointsInto v (decode v) :=
  Fields.ReadsObject.pointsInto (readsObject (fun w _ => Select.pointsInto_decode w)
    (fun w _ => TableRef.pointsInto_decode w)
    (fun w _ => pointsInto_array w fun _ x _ => Join.pointsInto_decode x)
    (fun w _ => WhereClause.pointsInto_decode w)
    (fun w _ => pointsInto_array w fun _ x _ => ofScalar_string.pointsInto x)
    (fun w _ => pointsInto_array w fun _ x _ => ofScalar_string.pointsInto x)
    (fun w _ => pointsInto_array w fun _ x _ => Condition.pointsInto_decode x)
    fun _ found => Declarations.pointsInto_decode (ordered.step? found))

/-! ## The outcome at a place -/

/-- The text of a place is that of its start and that of the steps from there. -/
theorem locationText_eq (base : String) (steps : List Step) :
    locationText base steps = base ++ String.join (steps.map Step.text) := by
  rw [locationText, String.join, List.foldl_map]
  have moved (first : String) :
      steps.foldl (fun path step => path ++ step.text) (base ++ first) =
        base ++ steps.foldl (fun path step => path ++ step.text) first := by
    induction steps generalizing first with
    | nil => rfl
    | cons step steps ih => rw [List.foldl_cons, List.foldl_cons, String.append_assoc, ih]
  rw [← moved, String.append_empty]

/-- Wherever an ordered document stands, a decoder gives the same node or breaks the same rule, or
it refuses the same value of the document for the same reason, and names where this value is by
adding the steps that lead to it to the place of the document. -/
def Decoded.RefusesInside {α : Type} (decode : Json → Decoded α) : Prop :=
  ∀ v : Json, v.Ordered →
    (∃ node, ∀ place, (decode v).located place = .ok node) ∨
    (∃ rule, ∀ place, (decode v).located place = .error (.structural rule)) ∨
    ∃ steps cause w, v.walk? steps = some w ∧ ∀ place,
      (decode v).located place =
        .error (.document (place ++ String.join (steps.map Step.text)) cause)

theorem Decoded.refusesInside_of_pointsInto {α : Type} {decode : Json → Decoded α}
    (points : ∀ v : Json, v.Ordered → PointsInto v (decode v)) : RefusesInside decode := by
  intro v ordered
  cases outcome : decode v with
  | ok node => exact .inl ⟨node, fun _ => rfl⟩
  | error failure =>
      cases failure with
      | defect rule => exact .inr (.inl ⟨rule, fun _ => rfl⟩)
      | mismatch steps cause =>
          obtain ⟨w, reached⟩ := points v ordered steps cause outcome
          refine .inr (.inr ⟨steps, cause, w, reached, fun place => ?_⟩)
          rw [← locationText_eq]
          rfl

/-- Every decoder refuses a document at a place inside it. -/
theorem decoders_refuseInside :
    RefusesInside Literal.decode ∧ RefusesInside Argument.decode ∧ RefusesInside Call.decode ∧
    RefusesInside Operand.decode ∧ RefusesInside Condition.decode ∧ RefusesInside Group.decode ∧
    RefusesInside Predicate.decode ∧ RefusesInside WhereClause.decode ∧
    RefusesInside TableRef.decode ∧ RefusesInside Join.decode ∧
    RefusesInside SelectField.decode ∧ RefusesInside Select.decode ∧
    RefusesInside Parameter.decode ∧ RefusesInside Configuration.decode := by
  refine ⟨?_, ?_, ?_, ?_, ?_, ?_, ?_, ?_, ?_, ?_, ?_, ?_, ?_, ?_⟩ <;>
    refine refusesInside_of_pointsInto fun v ordered => ?_
  · exact Literal.pointsInto_decode v
  · exact Argument.pointsInto_decode v
  · exact Call.pointsInto_decode v
  · exact Operand.pointsInto_decode v
  · exact Condition.pointsInto_decode v
  · exact Group.pointsInto_decode v
  · exact Predicate.pointsInto_decode v
  · exact WhereClause.pointsInto_decode v
  · exact TableRef.pointsInto_decode v
  · exact Join.pointsInto_decode v
  · exact SelectField.pointsInto_decode v
  · exact Select.pointsInto_decode v
  · exact Parameter.pointsInto_decode v
  · exact Configuration.pointsInto_decode ordered

/-- A WHERE clause with an operator that does not exist, in a condition of its second member. -/
def strayOperatorText : String :=
  "\x7b\"where\": [\x7b\"field\": \"a\", \"operator\": \"=\", \"value\": 1\x7d, " ++
    "\x7b\"conditions\": [\x7b\"operator\": \"~\", \"field\": \"c\"\x7d]\x7d]\x7d"

/-- The document of that clause. -/
def strayOperator : Json :=
  .object [("where", .array [
    .object [("field", .string "a"), ("operator", .string "="), ("value", .int 1)],
    .object [("conditions", .array [
      .object [("field", .string "c"), ("operator", .string "~")]])]])]

/-- The text is read as a document in order, and the clause is refused at the operator. -/
theorem strayOperator_refusedInside :
    strayOperator.Ordered ∧
      (WhereClause.decode strayOperator).located "$.conditions" =
        .error (.document "$.conditions.where[1].conditions[0].operator" (.unknownOperator "~")) ∧
      ∃ steps cause w, strayOperator.walk? steps = some w ∧ ∀ place,
        (WhereClause.decode strayOperator).located place =
          .error (.document (place ++ String.join (steps.map Step.text)) cause) := by
  have read : Json.read? strayOperatorText = some strayOperator := by decide +kernel
  have ordered := Json.ordered_of_read? read
  have refused (place : String) : (WhereClause.decode strayOperator).located place =
      .error (.document (locationText place [.key "where", .index 1, .key "conditions", .index 0,
        .key "operator"]) (.unknownOperator "~")) := rfl
  refine ⟨ordered, refused _, ?_⟩
  obtain ⟨_, _, _, _, _, _, _, clause, _⟩ := decoders_refuseInside
  rcases clause strayOperator ordered with ⟨node, accepted⟩ | ⟨rule, broken⟩ | inside
  · cases (refused "").symm.trans (accepted "")
  · cases (refused "").symm.trans (broken "")
  · exact inside

end RuleQuery
