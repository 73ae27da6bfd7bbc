/-
# How the decoders of objects read their entries

The decoder of every object is of one shape: it reads the object strictly, goes to its keys one
after another, decodes the value that it finds under each, and makes the node in the end. The
decoders are written with several accessors; here each of them is seen to be one and the same
access, `Fields.entry`, with a decoder for the value and an outcome for the case that there is none.

What is true of all nodes can then be proved once, for `Fields.Reads`, from what is true of the
decoders under their keys. Each decoder is put into this shape for an arbitrary property `P` of a
key and a decoder, given that the decoders of its parts have the property.
-/

import RuleQuery.Document.Configuration
import RuleQuery.Proofs.Document.Ordered

namespace RuleQuery

namespace Decoded

variable {α β : Type}

/-- A decoder of documents without parts, which accepts no others and locates no failure further
inside. -/
def OfScalar (decode : Json → Decoded α) : Prop :=
  ∀ v, (∃ cause, decode v = refuse cause) ∨ v.IsScalar ∧ ∃ a, decode v = .ok a

/-- A truth value. -/
def bool : Json → Decoded Bool
  | .bool b => .ok b
  | v => refuse (.expected "a boolean" v.kind)

/-- The items of an array, each decoded. -/
def array (decode : Json → Decoded α) : Json → Decoded (List α)
  | .array vs => items decode vs
  | v => refuse (.expected "an array" v.kind)

/-- Something that is there. -/
def present (decode : Json → Decoded α) (v : Json) : Decoded (Option α) := (decode v).map some

theorem within_map (step : Step) (f : α → β) (d : Decoded α) :
    (within step d).map f = within step (d.map f) := by
  cases d <;> rfl

/-- Both parts of an outcome that is accepted are. -/
theorem of_bind_eq_ok {d : Decoded α} {f : α → Decoded β} {b : β} (accepted : d >>= f = .ok b) :
    ∃ a, d = .ok a ∧ f a = .ok b := by
  cases d with
  | ok a => exact ⟨a, rfl, accepted⟩
  | error failure => cases accepted

theorem of_within_eq_ok {step : Step} {d : Decoded α} {a : α} (accepted : within step d = .ok a) :
    d = .ok a := by
  cases d with
  | ok b =>
      cases accepted
      rfl
  | error failure => cases accepted

theorem of_map_eq_ok {d : Decoded α} {f : α → β} {b : β} (accepted : d.map f = .ok b) :
    ∃ a, d = .ok a ∧ f a = b := by
  cases d with
  | ok a => exact ⟨a, rfl, Except.ok.inj accepted⟩
  | error failure => cases accepted

theorem ofScalar_string : OfScalar decodeString
  | .string s => .inr ⟨trivial, s, rfl⟩
  | .null | .bool _ | .int _ | .float _ | .array _ | .object _ => .inl ⟨_, rfl⟩

theorem ofScalar_bool : OfScalar bool
  | .bool b => .inr ⟨trivial, b, rfl⟩
  | .null | .string _ | .int _ | .float _ | .array _ | .object _ => .inl ⟨_, rfl⟩

theorem OfScalar.present {decode : Json → Decoded α} (scalar : OfScalar decode) :
    OfScalar (present decode) := by
  intro v
  rcases scalar v with ⟨cause, refused⟩ | ⟨single, a, accepted⟩
  · exact .inl ⟨cause, by rw [Decoded.present, refused]; rfl⟩
  · exact .inr ⟨single, some a, by rw [Decoded.present, accepted]; rfl⟩

/-- A text that has to be one of those with a meaning. -/
theorem ofScalar_meaning {f : String → Decoded α} (meaning : String → Option α)
    (cause : String → Mismatch)
    (reads : ∀ s, f s =
      match meaning s with
      | some a => .ok a
      | none => refuse (cause s)) : OfScalar fun v => decodeString v >>= f := by
  intro v
  cases v with
  | string s =>
      show (∃ cause, f s = refuse cause) ∨ True ∧ ∃ a, f s = .ok a
      rw [reads]
      cases meaning s with
      | some a => exact .inr ⟨trivial, a, rfl⟩
      | none => exact .inl ⟨cause s, rfl⟩
  | _ => exact .inl ⟨_, rfl⟩

end Decoded

open Decoded

theorem Comparison.ofScalar_decode : OfScalar fun v => decodeString v >>= decode :=
  ofScalar_meaning ofSymbol? .unknownOperator fun s => by
    rw [decode]
    cases ofSymbol? s <;> rfl

theorem Connective.ofScalar_decode : OfScalar fun v => decodeString v >>= decode :=
  ofScalar_meaning ofName? .unknownConnective fun s => by
    rw [decode]
    cases ofName? s <;> rfl

theorem JoinKind.ofScalar_decode : OfScalar fun v => decodeString v >>= decode :=
  ofScalar_meaning ofName? .unknownJoinKind fun s => by
    rw [decode]
    cases ofName? s <;> rfl

theorem ParameterKind.ofScalar_decode : OfScalar fun v => decodeString v >>= decode :=
  ofScalar_meaning ofName? .unknownParameterKind fun s => by
    rw [decode]
    cases ofName? s <;> rfl

namespace Fields

variable {α β : Type}

/-- What the value under a key decodes to. Without a value it is `default`, if there is one. -/
def entry (fs : Fields) (key : String) (default : Option α) (decode : Json → Decoded α) :
    Decoded α :=
  match fs.get? key with
  | some v => .within (.key key) (decode v)
  | none =>
    match default with
    | some a => .ok a
    | none => .refuse (.missingKey key)

theorem string_eq (fs : Fields) (key : String) :
    fs.string key = fs.entry key none decodeString := by
  rw [string, required, entry]
  cases fs.get? key with
  | none => rfl
  | some v => cases v <;> rfl

theorem string?_eq (fs : Fields) (key : String) :
    fs.string? key = fs.entry key (some none) (present decodeString) := by
  rw [string?, entry]
  cases fs.get? key with
  | none => rfl
  | some v => cases v <;> rfl

theorem bool?_eq (fs : Fields) (key : String) :
    fs.bool? key = fs.entry key (some none) (present bool) := by
  rw [bool?, entry]
  cases fs.get? key with
  | none => rfl
  | some v => cases v <;> rfl

/-- A value that has to be there, and what it decodes to. -/
theorem required_bind (fs : Fields) (key : String) (decode : Json → Decoded α)
    (rest : α → Decoded β) :
    (fs.required key >>= fun v => within (.key key) (decode v) >>= rest) =
      fs.entry key none decode >>= rest := by
  rw [required, entry]
  cases fs.get? key <;> rfl

/-- A text that has to be there, and what it means. -/
theorem string_bind (fs : Fields) (key : String) (f : String → Decoded α) (rest : α → Decoded β) :
    (fs.string key >>= fun s => within (.key key) (f s) >>= rest) =
      fs.entry key none (fun v => decodeString v >>= f) >>= rest := by
  rw [string, required, entry]
  cases fs.get? key with
  | none => rfl
  | some v => cases v <;> rfl

/-- A text that may be missing, and what it means. -/
theorem string?_bind (fs : Fields) (key : String) (f : String → Decoded α) :
    (fs.string? key >>= fun
      | some s => (within (.key key) (f s)).map some
      | none => .ok none) =
      fs.entry key (some none) (present fun v => decodeString v >>= f) := by
  rw [string?, entry]
  cases fs.get? key with
  | none => rfl
  | some v =>
      cases v with
      | string s => exact within_map _ some (f s)
      | _ => rfl

/-- The items of an array that has to be there, and what they decode to. -/
theorem items_bind (fs : Fields) (key : String) (decode : Json → Decoded α)
    (rest : List α → Decoded β) :
    (fs.items key >>= fun vs => within (.key key) (Decoded.items decode vs) >>= rest) =
      fs.entry key none (array decode) >>= rest := by
  rw [items, required, entry]
  cases fs.get? key with
  | none => rfl
  | some v => cases v <;> rfl

/-- The value under a key is the one that the entries have there. -/
theorem lookup?_of_get? {fs : Fields} {key : String} {v : Json} (found : fs.get? key = some v) :
    lookup? key fs.entries = some v := by
  rw [get?] at found
  split at found
  · cases found
  · exact found

/-- The items of an array that has to be there, if what they decode to is known beforehand. -/
theorem items_bind_known {fs : Fields} {key : String} {decode : Json → Decoded α}
    {decoded : Decoded (List α)}
    (known : ∀ vs, lookup? key fs.entries = some (.array vs) → decoded = Decoded.items decode vs)
    (rest : List α → Decoded β) :
    (fs.items key >>= fun _ => within (.key key) decoded >>= rest) =
      fs.entry key none (array decode) >>= rest := by
  rw [← items_bind, items, required]
  cases found : fs.get? key with
  | none => rfl
  | some v =>
      cases v with
      | array vs =>
          rw [known vs (lookup?_of_get? found)]
          rfl
      | _ => rfl

/-- The items of an array that may be missing, and what they decode to. -/
theorem decodeList_eq (fs : Fields) (key : String) (decode : Json → Decoded α) :
    Configuration.decodeList fs key decode = fs.entry key (some []) (array decode) := by
  rw [Configuration.decodeList, items?, items, required, entry]
  cases fs.get? key with
  | none => rfl
  | some v => cases v <;> rfl

/-- An object is read entry by entry: the given keys in their order, each with a decoder of which
`P` holds, and last the node is made. -/
inductive Reads (P : (β : Type) → String → (Json → Decoded β) → Prop) :
    List String → (Fields → Decoded α) → Prop
  | made (r : Except Defect α) : Reads P [] fun _ => ofMade r
  | rule {β : Type} {keys : List String} {r : Except Defect β} {rest : β → Fields → Decoded α}
      (next : ∀ b, Reads P keys (rest b)) : Reads P keys fun fs => ofMade r >>= fun b => rest b fs
  | entry {β : Type} {key : String} {keys : List String} {default : Option β}
      {decode : Json → Decoded β} {rest : β → Fields → Decoded α} (part : P β key decode)
      (next : ∀ b, Reads P keys (rest b)) :
      Reads P (key :: keys) fun fs => fs.entry key default decode >>= fun b => rest b fs

/-- A decoder of objects that reads the entry of every allowed key. -/
def ReadsObject (P : (β : Type) → String → (Json → Decoded β) → Prop) (allowed : List String)
    (decode : Json → Decoded α) : Prop :=
  ∃ (keys : List String) (body : Fields → Decoded α),
    allowed ⊆ keys ∧ Reads P keys body ∧ ∀ v, decode v = Fields.read allowed v >>= body

/-- What is read is an object, and its keys are all allowed. -/
theorem of_read {allowed : List String} {v : Json} {fs : Fields}
    (read : Fields.read allowed v = .ok fs) :
    v = .object fs.entries ∧ ∀ e ∈ fs.entries, e.1 ∈ allowed := by
  cases v with
  | object entries =>
      rw [Fields.read] at read
      split at read
      next => cases read
      next none_ =>
        cases read
        refine ⟨rfl, fun e mem => ?_⟩
        simpa using List.find?_eq_none.mp none_ e mem
  | _ => cases read

/-- An object that is read gives its own entries. -/
theorem read_object_bind {allowed : List String} {entries : List (String × Json)}
    {f g : Fields → Decoded α} (same : f ⟨entries⟩ = g ⟨entries⟩) :
    (Fields.read allowed (.object entries) >>= f) =
      Fields.read allowed (.object entries) >>= g := by
  rw [Fields.read]
  split
  · rfl
  · exact same

end Fields

/-! ## The decoders of the nodes -/

/-- The arguments are those of the array under their key. -/
theorem Argument.decodeUnderArgs_of_lookup? {entries : List (String × Json)} {items : List Json}
    (found : lookup? "args" entries = some (.array items)) :
    decodeUnderArgs entries = Decoded.items decode items := by
  induction entries with
  | nil => cases found
  | cons e rest ih =>
      obtain ⟨key, v⟩ := e
      rw [lookup?] at found
      by_cases here : key = "args"
      · rw [if_pos here] at found
        cases found
        rw [decodeUnderArgs, if_pos here, decodeFrom_eq]
        rfl
      · rw [if_neg here] at found
        rw [← ih found]
        cases v <;> simp [decodeUnderArgs, here]

/-- The members are those of the array under their key. -/
theorem Predicate.decodeUnderConditions_of_lookup? {entries : List (String × Json)}
    {items : List Json} (found : lookup? "conditions" entries = some (.array items)) :
    decodeUnderConditions entries = Decoded.items decode items := by
  induction entries with
  | nil => cases found
  | cons e rest ih =>
      obtain ⟨key, v⟩ := e
      rw [lookup?] at found
      by_cases here : key = "conditions"
      · rw [if_pos here] at found
        cases found
        rw [decodeUnderConditions, if_pos here, decodeFrom_eq]
        rfl
      · rw [if_neg here] at found
        rw [← ih found]
        cases v <;> simp [decodeUnderConditions, here]

section

open Fields

variable {P : (β : Type) → String → (Json → Decoded β) → Prop}
  (scalar : ∀ {β : Type} {key : String} {decode : Json → Decoded β},
    OfScalar decode → P β key decode)

include scalar in
theorem TableRef.readsObject : ReadsObject P ["name", "alias"] TableRef.decode := by
  refine ⟨["name", "alias"], fun fs => do
      let name ← fs.entry "name" none decodeString
      let aliasName ← fs.entry "alias" (some none) (present decodeString)
      ofMade (make name aliasName), by simp, ?_, fun v => ?_⟩
  · exact .entry (scalar ofScalar_string) fun _ => .entry (scalar ofScalar_string.present) fun _ =>
      .made _
  · simp only [decode, string_eq, string?_eq]

include scalar in
theorem Join.readsObject :
    ReadsObject P ["type", "table", "alias", "on", "use_as"] Join.decode := by
  refine ⟨["type", "table", "alias", "on", "use_as"], fun fs => do
      let kind ← fs.entry "type" none fun v => decodeString v >>= JoinKind.decode
      let table ← fs.entry "table" none decodeString
      let aliasName ← fs.entry "alias" (some none) (present decodeString)
      let condition ← fs.entry "on" none decodeString
      let join ← ofMade (make kind table aliasName condition)
      let useAs ← fs.entry "use_as" (some none) (present bool)
      return { join with useAs := useAs.getD true }, by simp, ?_, fun v => ?_⟩
  · exact .entry (scalar JoinKind.ofScalar_decode) fun _ =>
      .entry (scalar ofScalar_string) fun _ => .entry (scalar ofScalar_string.present) fun _ =>
      .entry (scalar ofScalar_string) fun _ => .rule fun join =>
      .entry (scalar ofScalar_bool.present) fun useAs =>
      .made (.ok { join with useAs := useAs.getD true })
  · simp only [decode, string_bind]
    simp only [string_eq, string?_eq, bool?_eq]

include scalar in
theorem SelectField.readsObject (expression : P _ "expression" Selected.decode) :
    ReadsObject P ["expression", "alias"] SelectField.decode := by
  refine ⟨["expression", "alias"], fun fs => do
      let expression ← fs.entry "expression" none Selected.decode
      let aliasName ← fs.entry "alias" (some none) (present decodeString)
      ofMade (make expression aliasName), by simp, ?_, fun v => ?_⟩
  · exact .entry expression fun _ => .entry (scalar ofScalar_string.present) fun _ => .made _
  · simp only [decode, required_bind, string?_eq]

theorem Select.readsObject (fields : P _ "fields" (array SelectField.decode)) :
    ReadsObject P ["fields"] Select.decode := by
  refine ⟨["fields"], fun fs => do
      let fields ← fs.entry "fields" none (array SelectField.decode)
      ofMade (make fields), by simp, ?_, fun v => ?_⟩
  · exact .entry fields fun _ => .made _
  · simp only [decode, items_bind]

include scalar in
theorem Condition.readsObject (field : P _ "field" Field.decode)
    (value : P _ "value" Operand.decode) :
    ReadsObject P ["field", "operator", "value"] Condition.decode := by
  refine ⟨["field", "operator", "value"], fun fs => do
      let field ← fs.entry "field" none Field.decode
      let op ← fs.entry "operator" none fun v => decodeString v >>= Comparison.decode
      let value ← fs.entry "value" (some .absent) Operand.decode
      ofMade (make field op value), by simp, ?_, fun v => ?_⟩
  · exact .entry field fun _ =>
      .entry (scalar Comparison.ofScalar_decode) fun _ =>
      .entry value fun _ => .made _
  · simp only [decode, required_bind, string_bind]
    refine bind_congr fun fs => bind_congr fun field => bind_congr fun op => ?_
    rw [entry]
    cases fs.get? "value" <;> rfl

theorem WhereClause.readsObject (members : P _ "where" (array Predicate.decode)) :
    ReadsObject P ["where"] WhereClause.decode := by
  refine ⟨["where"], fun fs => do
      let members ← fs.entry "where" (some []) (array Predicate.decode)
      return ⟨members⟩, by simp, ?_, fun v => ?_⟩
  · exact .entry members fun members => .made (.ok (WhereClause.mk members))
  · simp only [decode, ← decodeList_eq, Configuration.decodeList, bind_assoc]

include scalar in
theorem Call.readsObject (args : P _ "args" (array Argument.decode)) :
    ReadsObject P ["function", "args"] Call.decode := by
  refine ⟨["function", "args"], fun fs => do
      let function ← fs.entry "function" none decodeString
      let args ← fs.entry "args" none (array Argument.decode)
      ofMade (make function args), by simp, ?_, fun v => ?_⟩
  · exact .entry (scalar ofScalar_string) fun _ => .entry args fun _ => .made _
  · cases v with
    | object entries =>
        rw [decode, assemble]
        refine read_object_bind ?_
        simp only [string_eq]
        exact bind_congr fun function =>
          items_bind_known (fun _ => Argument.decodeUnderArgs_of_lookup?) _
    | _ => rfl

include scalar in
theorem Group.readsObject (members : P _ "conditions" (array Predicate.decode)) :
    ReadsObject P ["logical_operator", "conditions"] Group.decode := by
  refine ⟨["logical_operator", "conditions"], fun fs => do
      let connective ← fs.entry "logical_operator" (some none)
        (present fun v => decodeString v >>= Connective.decode)
      let members ← fs.entry "conditions" none (array Predicate.decode)
      ofMade (make members connective), by simp, ?_, fun v => ?_⟩
  · exact .entry (scalar Connective.ofScalar_decode.present) fun _ =>
      .entry members fun _ => .made _
  · cases v with
    | object entries =>
        rw [decode, assemble]
        refine read_object_bind ?_
        rw [← string?_bind, bind_assoc]
        refine bind_congr fun name => ?_
        cases name with
        | none => exact items_bind_known (fun _ => Predicate.decodeUnderConditions_of_lookup?) _
        | some s =>
            exact bind_congr fun connective =>
              items_bind_known (fun _ => Predicate.decodeUnderConditions_of_lookup?) _
    | _ => rfl

/-- A declaration is made of what its entries decode to. -/
theorem Parameter.decode_eq (v : Json) : decode v =
    Fields.read ["type", "required", "default", "description", "values"] v >>= fun fs => do
      let kind ← fs.entry "type" none fun v => decodeString v >>= ParameterKind.decode
      let default ← fs.entry "default" (some none) (present (decodeDefault kind))
      let values ← fs.entry "values" (some none) (present (array decodeString))
      let required ← fs.entry "required" (some none) (present bool)
      let description ← fs.entry "description" (some none) (present decodeString)
      return ⟨kind, required.getD false, default, description, values⟩ := by
  simp only [decode, string_bind, string?_eq, bool?_eq]
  refine bind_congr fun fs => bind_congr fun kind => ?_
  simp only [entry, Fields.items, Fields.required, within_map]
  cases fs.get? "values" with
  | none => cases fs.get? "default" <;> rfl
  | some v => cases fs.get? "default" <;> cases v <;> rfl

include scalar in
theorem Parameter.readsObject
    (default : ∀ kind, P _ "default" (present (decodeDefault kind)))
    (values : P _ "values" (present (array decodeString))) :
    ReadsObject P ["type", "required", "default", "description", "values"] Parameter.decode := by
  refine ⟨["type", "default", "values", "required", "description"], _, by simp, ?_, decode_eq⟩
  exact .entry (scalar ParameterKind.ofScalar_decode) fun kind =>
    .entry (default kind) fun default => .entry values fun values =>
    .entry (scalar ofScalar_bool.present) fun required =>
    .entry (scalar ofScalar_string.present) fun description =>
    .made (.ok (Parameter.mk kind (required.getD false) default description values))

theorem Configuration.decode_eq (v : Json) : decode v =
    Fields.read keys v >>= fun fs => do
      let select ← fs.entry "select" none Select.decode
      let table ← fs.entry "from_table" none TableRef.decode
      let joins ← fs.entry "joins" (some []) (array Join.decode)
      let conditions ← fs.entry "conditions" (some .empty) WhereClause.decode
      let groupBy ← fs.entry "group_by" (some []) (array decodeString)
      let orderBy ← fs.entry "order_by" (some []) (array decodeString)
      let having ← fs.entry "having" (some []) (array Condition.decode)
      let parameters ← fs.entry "parameters" (some .empty) Declarations.decode
      return ⟨select, table, joins, conditions, groupBy, having, orderBy, parameters⟩ := by
  simp only [decode, required_bind, decodeList_eq]
  refine bind_congr fun fs => bind_congr fun select => bind_congr fun table =>
    bind_congr fun joins => ?_
  simp only [entry]
  cases fs.get? "conditions" <;> cases fs.get? "parameters" <;> rfl

theorem Configuration.readsObject (select : P _ "select" Select.decode)
    (table : P _ "from_table" TableRef.decode) (joins : P _ "joins" (array Join.decode))
    (conditions : P _ "conditions" WhereClause.decode)
    (groupBy : P _ "group_by" (array decodeString)) (orderBy : P _ "order_by" (array decodeString))
    (having : P _ "having" (array Condition.decode))
    (parameters : P _ "parameters" Declarations.decode) :
    ReadsObject P keys Configuration.decode := by
  refine ⟨["select", "from_table", "joins", "conditions", "group_by", "order_by", "having",
    "parameters"], _, by simp [keys], ?_, decode_eq⟩
  exact .entry select fun select => .entry table fun table => .entry joins fun joins =>
    .entry conditions fun conditions => .entry groupBy fun groupBy =>
    .entry orderBy fun orderBy => .entry having fun having =>
    .entry parameters fun parameters =>
    .made (.ok (Configuration.mk select table joins conditions groupBy having orderBy parameters))

end

end RuleQuery
