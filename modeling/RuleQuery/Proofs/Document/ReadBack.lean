/-
# Documents are read back

The clauses of a configuration and the configuration itself, on top of the trees they hold. The
declaration of a parameter is the one node that is not always read back: a default that is NULL
counts as missing, and one that is a text is read again by the kind of the parameter.
`Parameter.rereadDefault` says what becomes of a default, failure included.
-/

import RuleQuery.Proofs.Document.Entries
import RuleQuery.Proofs.Document.Tree
import RuleQuery.Proofs.NameMap

namespace RuleQuery

/-! ## Entries -/

namespace Fields

variable {α β : Type} {fs : Fields} {key : String}

/-- What stands under a key and is not null is decoded. -/
theorem entry_of_lookup? {v : Json} {default : Option α} {decode : Json → Decoded α}
    (found : lookup? key fs.entries = some v) (present : v ≠ .null) :
    fs.entry key default decode = .within (.key key) (decode v) := by
  simp only [entry, get?_of_lookup? found present]

/-- A part that is written only if it is there is read back. -/
theorem entry_optional {part : Option α} {encode : α → Json} {decode : Json → Decoded α}
    (found : lookup? key fs.entries = part.map encode)
    (read : ∀ a, encode a ≠ .null ∧ decode (encode a) = .ok a) :
    fs.entry key (some none) (Decoded.present decode) = .ok part := by
  cases part with
  | none =>
      rw [entry, get?, found]
      rfl
  | some a =>
      rw [entry_of_lookup? found (read a).1, Decoded.present, (read a).2]
      rfl

/-- Items are read back one by one. -/
theorem entry_array {default : Option (List α)} {decode : Json → Decoded α} {encode : β → Json}
    {g : β → α} {xs : List β} (found : lookup? key fs.entries = some (.array (xs.map encode)))
    (read : ∀ x ∈ xs, decode (encode x) = .ok (g x)) :
    fs.entry key default (Decoded.array decode) = .ok (xs.map g) := by
  rw [entry_of_lookup? found nofun, Decoded.array, Decoded.items_map read, Decoded.within_ok]

end Fields

/-! ## Clauses -/

/-- A group is read back. -/
theorem Group.Built.decode_encode {g : Group} (built : g.Built)
    (finite : ∀ l ∈ g.literals, l.IsFinite) :
    decode g.encode = .ok (g.mapLiterals Literal.restored) := by
  obtain ⟨members, connective, parts, made⟩ := built
  rw [encode, toPredicate, Predicate.encode]
  apply decode_encodeWith made
  intro p mem
  have member : p ∈ members := (of_make made).1 ▸ mem
  exact (parts p member).decode_encode fun l leaf => finite l (mem_literals.mpr ⟨p, mem, leaf⟩)

theorem WhereClause.Built.decode_encode {w : WhereClause} (built : w.Built)
    (finite : ∀ l ∈ w.literals, l.IsFinite) :
    decode w.encode = .ok (w.mapLiterals Literal.restored) := by
  have read : Decoded.items Predicate.decode (Predicate.encodeAll w.members) =
      .ok (Predicate.mapAll Literal.restored w.members) := by
    rw [Predicate.encodeAll_eq_map, Predicate.mapAll_eq_map]
    apply Decoded.items_map
    intro p mem
    apply (built p mem).decode_encode
    intro l leaf
    exact finite l (mem_literals.mpr ⟨p, mem, leaf⟩)
  have fields : Fields.read ["where"] w.encode =
      .ok ⟨[("where", .array (Predicate.encodeAll w.members))]⟩ := rfl
  have items : Fields.items? ⟨[("where", .array (Predicate.encodeAll w.members))]⟩ "where" =
      .ok (Predicate.encodeAll w.members) := rfl
  unfold decode
  simp only [fields, items, read, Decoded.ok_bind, Decoded.within_ok]
  rfl

/-- A text or null is read back as what it was. -/
theorem Fields.string?_ofString? {fs : Fields} {key : String} {text : Option String}
    (found : lookup? key fs.entries = some (.ofString? text)) : fs.string? key = .ok text := by
  unfold string? get?
  rw [found]
  cases text <;> rfl

theorem TableRef.Built.decode_encode {t : TableRef} (built : t.Built) :
    decode t.encode = .ok t := by
  obtain ⟨name, aliasName, made⟩ := built
  have remade := made
  obtain ⟨rfl, _, _⟩ := of_make made
  have fields : Fields.read ["name", "alias"] (encode ⟨name, aliasName⟩) =
      .ok ⟨[("alias", .ofString? aliasName), ("name", .string name)]⟩ := rfl
  have text : Fields.string ⟨[("alias", .ofString? aliasName), ("name", .string name)]⟩ "name" =
      .ok name := rfl
  have short : Fields.string? ⟨[("alias", .ofString? aliasName), ("name", .string name)]⟩ "alias" =
      .ok aliasName := Fields.string?_ofString? rfl
  unfold decode
  simp only [fields, text, short, remade, Decoded.ok_bind]
  rfl

theorem JoinKind.decode_symbol (kind : JoinKind) : JoinKind.decode kind.symbol = .ok kind := by
  rw [JoinKind.decode, ofName?_symbol]

theorem Join.Built.decode_encode {j : Join} (built : j.Built) : decode j.encode = .ok j := by
  obtain ⟨kind, table, aliasName, condition, made, useAs, making, rfl⟩ := built
  have remade := making
  obtain ⟨rfl, _, _, _⟩ := of_make making
  generalize entries : Fields.mk [("alias", .ofString? aliasName), ("on", .string condition),
    ("table", .string table), ("type", .string kind.symbol), ("use_as", .bool useAs)] = fs
  have fields : Fields.read ["type", "table", "alias", "on", "use_as"]
      (encode ⟨kind, table, aliasName, condition, useAs⟩) = .ok fs := by
    rw [← entries]
    rfl
  have texts : fs.string "type" = .ok kind.symbol ∧ fs.string "table" = .ok table ∧
      fs.string "on" = .ok condition ∧ fs.bool? "use_as" = .ok (some useAs) := by
    rw [← entries]
    exact ⟨rfl, rfl, rfl, rfl⟩
  have short : fs.string? "alias" = .ok aliasName := by
    rw [← entries]
    exact Fields.string?_ofString? rfl
  obtain ⟨type, name, on, choice⟩ := texts
  unfold decode
  simp only [fields, type, name, on, choice, short, JoinKind.decode_symbol, remade, Decoded.ok_bind,
    Decoded.within_ok, Decoded.ofMade, Except.mapError]
  rfl

theorem Selected.Built.decode_encode {s : Selected} (built : s.Built)
    (finite : ∀ l ∈ s.literals, l.IsFinite) :
    decode s.encode = .ok (s.mapLiterals Literal.restored) := by
  cases built with
  | raw text => rfl
  | @call c built =>
      have read := built.decode_encode finite
      obtain ⟨entries, object, _⟩ := c.exists_encode
      rw [encode, object, decode, ← object, read]
      rfl

theorem Selected.encode_ne_null (s : Selected) : s.encode ≠ .null := by
  cases s with
  | raw text => nofun
  | call c => exact c.encode_ne_null

theorem SelectField.Built.decode_encode {field : SelectField} (built : field.Built)
    (finite : ∀ l ∈ field.literals, l.IsFinite) :
    decode field.encode = .ok (field.mapLiterals Literal.restored) := by
  obtain ⟨expression, aliasName, selected, made⟩ := built
  have remade := make_mapLiterals made (f := Literal.restored)
  obtain ⟨rfl, _⟩ := of_make made
  have read := selected.decode_encode finite
  generalize entries : Fields.mk [("alias", .ofString? aliasName),
    ("expression", expression.encode)] = fs
  have fields : Fields.read ["expression", "alias"] (encode ⟨expression, aliasName⟩) = .ok fs := by
    rw [← entries]
    rfl
  have first : fs.required "expression" = .ok expression.encode := by
    rw [← entries]
    exact Fields.required_of_lookup? rfl expression.encode_ne_null
  have short : fs.string? "alias" = .ok aliasName := by
    rw [← entries]
    exact Fields.string?_ofString? rfl
  unfold decode
  simp only [fields, first, short, read, Decoded.ok_bind, Decoded.within_ok]
  exact congrArg Decoded.ofMade remade

theorem Select.Built.decode_encode {s : Select} (built : s.Built)
    (finite : ∀ l ∈ s.literals, l.IsFinite) :
    decode s.encode = .ok (s.mapLiterals Literal.restored) := by
  obtain ⟨fields, fieldBuilt, made⟩ := built
  have remade := make_mapLiterals made (f := Literal.restored)
  obtain ⟨rfl, _⟩ := of_make made
  have read : Decoded.items SelectField.decode (fields.map SelectField.encode) =
      .ok (fields.map (SelectField.mapLiterals Literal.restored)) := by
    apply Decoded.items_map
    intro field mem
    apply (fieldBuilt field mem).decode_encode
    intro l leaf
    exact finite l (List.mem_flatMap.mpr ⟨field, mem, leaf⟩)
  have object : Fields.read ["fields"] (encode ⟨fields⟩) =
      .ok ⟨[("fields", .array (fields.map SelectField.encode))]⟩ := rfl
  have items : Fields.items ⟨[("fields", .array (fields.map SelectField.encode))]⟩ "fields" =
      .ok (fields.map SelectField.encode) := rfl
  unfold decode
  simp only [object, items, read, Decoded.ok_bind, Decoded.within_ok]
  exact congrArg Decoded.ofMade remade

/-! ## Parameters -/

namespace Parameter

/-- The entries of a declaration. -/
def entries (p : Parameter) : List (String × Json) :=
  optionalEntry "default" (p.default.map Literal.encode)
    ++ optionalEntry "description" (p.description.map .string)
    ++ [("required", .bool p.required), ("type", .string p.kind.name)]
    ++ optionalEntry "values" (p.values.map .ofStrings)

/-- Where the parts of a declaration stand in its document. -/
structure Laid (p : Parameter) (entries : List (String × Json)) : Prop where
  allowed : Fields.read ["type", "required", "default", "description", "values"]
    (.object entries) = .ok ⟨entries⟩
  kind : lookup? "type" entries = some (.string p.kind.name)
  required : lookup? "required" entries = some (.bool p.required)
  default : lookup? "default" entries = p.default.map Literal.encode
  description : lookup? "description" entries = p.description.map .string
  values : lookup? "values" entries = p.values.map .ofStrings

theorem laid_entries (p : Parameter) : p.Laid p.entries := by
  obtain ⟨kind, required, default, description, values⟩ := p
  cases default <;> cases description <;> cases values <;> exact ⟨rfl, rfl, rfl, rfl, rfl, rfl⟩

theorem decode_kindName (kind : ParameterKind) :
    (decodeString (.string kind.name) >>= ParameterKind.decode) = .ok kind := by
  rw [decodeString, Decoded.ok_bind, ParameterKind.decode, ParameterKind.ofName?_name]

theorem decode_strings (texts : List String) :
    Decoded.array decodeString (.ofStrings texts) = .ok texts := by
  have read : Decoded.items decodeString (texts.map .string) = .ok (texts.map id) :=
    Decoded.items_map fun _ _ => rfl
  rwa [List.map_id] at read

/-- What the kind of a parameter makes of a literal given as its default. -/
def reread (kind : ParameterKind) : Literal → Decoded Literal
  | .string s =>
    if kind.isTextual then .ok (.string s)
    else match kind.readValue? s with
      | some l => .ok l
      | none => .refuse (.wrongDefault kind s)
  | l => .ok l.restored

/-- A literal that is no text is read as itself. -/
theorem reread_of_not_string (kind : ParameterKind) {l : Literal} (other : ∀ s, l ≠ .string s) :
    reread kind l = .ok l.restored := by
  cases l with
  | string s => exact absurd rfl (other s)
  | _ => rfl

theorem decodeDefault_encode (kind : ParameterKind) {l : Literal} (finite : l.IsFinite) :
    decodeDefault kind l.encode = reread kind l := by
  unfold decodeDefault
  rw [Literal.decode_encode finite, Decoded.ok_bind]
  cases l <;> rfl

/-- What becomes of the default of a parameter that is written and read again. -/
def rereadDefault (p : Parameter) : Decoded (Option Literal) :=
  match p.default with
  | none | some .null => .ok none
  | some l => (Decoded.within (.key "default") (reread p.kind l)).map some

theorem rereadDefault_of_present {p : Parameter} {l : Literal} (given : p.default = some l)
    (present : l ≠ .null) :
    p.rereadDefault = (Decoded.within (.key "default") (reread p.kind l)).map some := by
  rw [rereadDefault, given]
  cases l with
  | null => exact absurd rfl present
  | _ => rfl

/-- The entry of the default is read as the kind of the parameter rereads it. NULL counts as no
entry. -/
theorem entry_default {p : Parameter} (finite : ∀ l, p.default = some l → l.IsFinite) {fs : Fields}
    (found : lookup? "default" fs.entries = p.default.map Literal.encode) :
    fs.entry "default" (some none) (Decoded.present (decodeDefault p.kind)) =
      p.rereadDefault := by
  rw [Fields.entry]
  cases given : p.default with
  | none =>
      rw [given, Option.map_none] at found
      rw [Fields.get?, found, rereadDefault, given]
  | some l =>
      rw [given, Option.map_some] at found
      by_cases null : l = .null
      · subst null
        rw [Fields.get?, found, rereadDefault, given]
        rfl
      · rw [Fields.get?_of_lookup? found (Literal.encode_ne_null (finite l given) null),
          rereadDefault_of_present given null, Decoded.within_map,
          ← decodeDefault_encode p.kind (finite l given)]
        rfl

/-- A declaration is read back but for its default. -/
theorem decode_encode {p : Parameter} (finite : ∀ l, p.default = some l → l.IsFinite) :
    decode p.encode = p.rereadDefault.map fun default => { p with default } := by
  obtain ⟨fs, object, laid⟩ : ∃ fs : Fields, p.encode = .object fs.entries ∧ p.Laid fs.entries :=
    ⟨⟨p.entries⟩, rfl, p.laid_entries⟩
  have kind : fs.entry "type" none (fun v => decodeString v >>= ParameterKind.decode) =
      .ok p.kind := by
    rw [Fields.entry_of_lookup? laid.kind nofun, decode_kindName, Decoded.within_ok]
  have required : fs.entry "required" (some none) (Decoded.present Decoded.bool) =
      .ok (some p.required) :=
    Fields.entry_of_lookup? laid.required nofun
  have values : fs.entry "values" (some none) (Decoded.present (Decoded.array decodeString)) =
      .ok p.values :=
    Fields.entry_optional laid.values fun texts => ⟨nofun, decode_strings texts⟩
  have description : fs.entry "description" (some none) (Decoded.present decodeString) =
      .ok p.description :=
    Fields.entry_optional laid.description fun _ => ⟨nofun, rfl⟩
  rw [decode_eq, object, laid.allowed]
  simp only [kind, entry_default finite laid.default, values, required, description,
    Decoded.ok_bind]
  cases p.rereadDefault <;> rfl

/-- The declaration after it is written and read again, if its default can be read. -/
def reloaded (p : Parameter) : Parameter :=
  match p.rereadDefault with
  | .ok default => { p with default }
  | .error _ => p

/-- The default of a declaration can be read again. -/
def Rereads (p : Parameter) : Prop := ∃ default, p.rereadDefault = .ok default

/-- A default that can be read again is the one that is loaded. -/
theorem rereads_of_rereadDefault {p : Parameter} {default : Option Literal}
    (read : p.rereadDefault = .ok default) : p.Rereads ∧ p.reloaded.default = default := by
  refine ⟨⟨default, read⟩, ?_⟩
  rw [reloaded, read]

theorem decode_encode_of_rereads {p : Parameter} (finite : ∀ l, p.default = some l → l.IsFinite)
    (rereads : p.Rereads) : decode p.encode = .ok p.reloaded := by
  obtain ⟨default, read⟩ := rereads
  rw [decode_encode finite, reloaded, read]
  rfl

theorem rereads_of_decode {p q : Parameter} (finite : ∀ l, p.default = some l → l.IsFinite)
    (read : decode p.encode = .ok q) : p.Rereads := by
  rw [decode_encode finite] at read
  cases default : p.rereadDefault with
  | ok d => exact ⟨d, default⟩
  | error e =>
      rw [default] at read
      cases read

end Parameter

namespace Declarations

/-- The numbers among the defaults can be written. -/
def FiniteDefaults (entries : List (String × Parameter)) : Prop :=
  ∀ e ∈ entries, ∀ l, e.2.default = some l → l.IsFinite

/-- Declarations are read into a map one after another. -/
theorem decodeEntries_encode {es : List (String × Parameter)} (finite : FiniteDefaults es)
    (rereads : ∀ e ∈ es, e.2.Rereads) (start : Declarations) :
    decodeEntries start (es.map fun e => (e.1, e.2.encode)) =
      .ok (es.foldl (fun m e => m.insert e.1 e.2.reloaded) start) := by
  induction es generalizing start with
  | nil => rfl
  | cons e es ih =>
      obtain ⟨name, p⟩ := e
      have head : Parameter.decode p.encode = .ok p.reloaded :=
        Parameter.decode_encode_of_rereads (finite (name, p) (by simp))
          (rereads (name, p) (by simp))
      have tail := ih (fun e mem => finite e (List.mem_cons_of_mem _ mem))
        (fun e mem => rereads e (List.mem_cons_of_mem _ mem)) (start.insert name p.reloaded)
      simp only [List.map_cons, List.foldl_cons, decodeEntries, head, Decoded.within_ok,
        Decoded.ok_bind, tail]

/-- Declarations whose defaults can be read are read as what becomes of each. -/
theorem decode_encode_of_rereads {declared : Declarations}
    (finite : FiniteDefaults declared.entries) (rereads : ∀ e ∈ declared.entries, e.2.Rereads) :
    decode (encode declared) = .ok (declared.mapValues Parameter.reloaded) := by
  have whole := NameMap.ofList_entries (declared.mapValues Parameter.reloaded)
  rw [NameMap.ofList, NameMap.mapValues, List.foldl_map] at whole
  rw [encode, decode, decodeEntries_encode finite rereads, whole]
  rfl

/-- Declarations are read only if every default is. -/
theorem rereads_of_decodeEntries {es : List (String × Parameter)} (finite : FiniteDefaults es)
    {start m : Declarations}
    (read : decodeEntries start (es.map fun e => (e.1, e.2.encode)) = .ok m) :
    ∀ e ∈ es, e.2.Rereads := by
  induction es generalizing start with
  | nil => simp
  | cons e es ih =>
      obtain ⟨name, p⟩ := e
      rw [List.map_cons, decodeEntries] at read
      cases head : Parameter.decode p.encode with
      | error failure =>
          rw [head] at read
          cases read
      | ok q =>
          rw [head, Decoded.within_ok, Decoded.ok_bind] at read
          intro e mem
          rcases List.mem_cons.mp mem with rfl | later
          · exact Parameter.rereads_of_decode (finite (name, p) (by simp)) head
          · exact ih (fun e mem => finite e (List.mem_cons_of_mem _ mem)) read e later

end Declarations

/-! ## Configurations -/

namespace Configuration

/-- The entries of a configuration. -/
def entries (c : Configuration) : List (String × Json) :=
  [("conditions", c.conditions.encode),
      ("from_table", c.table.encode),
      ("group_by", .ofStrings c.groupBy),
      ("having", .array (c.having.map Condition.encode)),
      ("joins", .array (c.joins.map Join.encode)),
      ("order_by", .ofStrings c.orderBy)]
    ++ (if c.parameters.isEmpty then [] else [("parameters", Declarations.encode c.parameters)])
    ++ [("select", c.select.encode)]

/-- Where the parts of a configuration stand in its document. -/
structure Laid (c : Configuration) (fs : Fields) : Prop where
  allowed : Fields.read keys c.encode = .ok fs
  select : lookup? "select" fs.entries = some c.select.encode
  table : lookup? "from_table" fs.entries = some c.table.encode
  joins : lookup? "joins" fs.entries = some (.array (c.joins.map Join.encode))
  conditions : lookup? "conditions" fs.entries = some c.conditions.encode
  groupBy : lookup? "group_by" fs.entries = some (.ofStrings c.groupBy)
  orderBy : lookup? "order_by" fs.entries = some (.ofStrings c.orderBy)
  having : lookup? "having" fs.entries = some (.array (c.having.map Condition.encode))
  parameters : lookup? "parameters" fs.entries =
    if c.parameters.isEmpty then none else some (Declarations.encode c.parameters)

theorem laid_entries (c : Configuration) : c.Laid ⟨c.entries⟩ := by
  have whole : c.encode = .object c.entries := rfl
  cases undeclared : c.parameters.isEmpty with
  | true =>
      constructor <;> simp only [whole, entries, undeclared] <;> rfl
  | false =>
      constructor <;> simp only [whole, entries, undeclared] <;> rfl

/-- The entry of the declarations is read as they are, also when there are none and it is left
out. -/
theorem entry_parameters {c : Configuration} {fs : Fields} (laid : c.Laid fs) :
    fs.entry "parameters" (some .empty) Declarations.decode =
      .within (.key "parameters") (Declarations.decode (Declarations.encode c.parameters)) := by
  have found := laid.parameters
  cases undeclared : c.parameters.isEmpty with
  | true =>
      rw [undeclared, if_pos rfl] at found
      have empty : c.parameters = .empty := NameMap.ext (List.isEmpty_iff.mp undeclared)
      rw [Fields.entry, Fields.get?, found, empty]
      rfl
  | false =>
      rw [undeclared, if_neg Bool.false_ne_true] at found
      exact Fields.entry_of_lookup? found (Json.object_ne_null _)

/-- A configuration is read back but for the defaults of its parameters. -/
theorem decode_encode {c : Configuration} (parts : c.Parts)
    (finite : ∀ l ∈ c.statementLiterals, l.IsFinite) :
    decode c.encode = (Decoded.within (.key "parameters")
      (Declarations.decode (Declarations.encode c.parameters))).map
        fun parameters => { c.mapLiterals Literal.restored with parameters } := by
  have laid := c.laid_entries
  generalize Fields.mk c.entries = fs at laid
  simp only [statementLiterals, List.mem_append] at finite
  have select : fs.entry "select" none Select.decode =
      .ok (c.select.mapLiterals Literal.restored) := by
    rw [Fields.entry_of_lookup? laid.select (Json.object_ne_null _),
      parts.select.decode_encode fun l mem => finite l (.inl (.inl mem)), Decoded.within_ok]
  have table : fs.entry "from_table" none TableRef.decode = .ok c.table := by
    rw [Fields.entry_of_lookup? laid.table (Json.object_ne_null _), parts.table.decode_encode,
      Decoded.within_ok]
  have joins : fs.entry "joins" (some []) (Decoded.array Join.decode) = .ok (c.joins.map id) :=
    Fields.entry_array laid.joins fun j mem => (parts.joins j mem).decode_encode
  have conditions : fs.entry "conditions" (some .empty) WhereClause.decode =
      .ok (c.conditions.mapLiterals Literal.restored) := by
    rw [Fields.entry_of_lookup? laid.conditions (Json.object_ne_null _),
      parts.conditions.decode_encode fun l mem => finite l (.inl (.inr mem)), Decoded.within_ok]
  have groupBy : fs.entry "group_by" (some []) (Decoded.array decodeString) =
      .ok (c.groupBy.map id) :=
    Fields.entry_array laid.groupBy fun _ _ => rfl
  have orderBy : fs.entry "order_by" (some []) (Decoded.array decodeString) =
      .ok (c.orderBy.map id) :=
    Fields.entry_array laid.orderBy fun _ _ => rfl
  have having : fs.entry "having" (some []) (Decoded.array Condition.decode) =
      .ok (c.having.map (Condition.mapLiterals Literal.restored)) := by
    apply Fields.entry_array laid.having
    intro condition mem
    apply (parts.having condition mem).decode_encode
    intro l leaf
    exact finite l (.inr (List.mem_flatMap.mpr ⟨condition, mem, leaf⟩))
  rw [decode_eq]
  simp only [laid.allowed, select, table, joins, conditions, groupBy, orderBy, having,
    entry_parameters laid, Decoded.ok_bind, List.map_id]
  cases Declarations.decode (Declarations.encode c.parameters) <;> rfl

end Configuration

end RuleQuery
