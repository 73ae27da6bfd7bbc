/-
# Literals, calls, conditions and predicates are read back

A node that its constructors can build is written to a document and read back as itself, but for its
timestamps, which are written to the second. The only other loss is that of a number that is not
finite, which has no written form; so floats are asked to be finite here.

Each decoder looks at the keys of an object to find out what it holds, and each encoder writes the
keys that tell it; reading an object that was written is therefore an evaluation of the decoder at
the entries. What is left is that the constructor, which the decoder calls in the end, accepts the
parts again.
-/

import RuleQuery.Document.Predicate
import RuleQuery.Proofs.Document.Calendar
import RuleQuery.Proofs.Literals

namespace RuleQuery

open RuleQuery.Calendar

namespace Literal

/-- What a literal is read back as: a timestamp loses the part of a second. -/
def restored : Literal → Literal
  | .timestamp t => .timestamp t.restored
  | l => l

/-- A literal whose number, if it is one, can be written. -/
def IsFinite : Literal → Prop
  | .float x => x.isFinite = true
  | _ => True

/-- A literal that a document holds completely. -/
def IsStorable (l : Literal) : Prop :=
  l.IsFinite ∧ ∀ t, l = .timestamp t → t.IsWhole

theorem kind_restored (l : Literal) : l.restored.kind = l.kind := by
  cases l <;> rfl

theorem restored_of_isStorable {l : Literal} (storable : l.IsStorable) : l.restored = l := by
  cases l with
  | timestamp t => rw [restored, Timestamp.restored_of_isWhole (storable.2 t rfl)]
  | _ => rfl

/-- Only a timestamp and a number can be more than a document holds. -/
theorem IsStorable.of_kind {l : Literal} (finite : l.IsFinite)
    (untimed : l.kind ≠ .timestamp) : l.IsStorable :=
  ⟨finite, fun _ timestamp => absurd (congrArg kind timestamp) untimed⟩

/-- An integer of 64 bits is read as an integer. -/
theorem ofInteger_toInt (n : Int64) : ofInteger n.toInt = .int n := by
  rw [ofInteger, if_pos (Number.isInt64_toInt n), Int64.ofInt_toInt]

/-- The tag tells how the text of a tagged literal is read. -/
theorem decodeTagged_single {tag : String} (known : tag ∈ tags) (text : String) :
    decodeTagged (.object [(tag, .string text)]) = ofTag tag text := by
  simp only [tags, List.mem_cons, List.not_mem_nil, or_false] at known
  rcases known with rfl | rfl | rfl <;> rfl

theorem decode_tagged {tag : String} (known : tag ∈ tags) (text : List Char) :
    decode (tagged tag text) = ofTag tag (String.ofList text) :=
  decodeTagged_single known _

/-- A literal is read back, a timestamp to the second. -/
theorem decode_encode {l : Literal} (finite : l.IsFinite) : decode l.encode = .ok l.restored := by
  cases l with
  | int n => exact congrArg Except.ok (ofInteger_toInt n)
  | float x =>
      have written : Json.ofBinary64 x = .float x := if_pos finite
      rw [encode, written]
      rfl
  | date d =>
      rw [encode, decode_tagged (by decide), ofTag, readDate?_text]
      rfl
  | timestamp t =>
      rw [encode, decode_tagged (by decide), ofTag, readTimestamp?_text]
      rfl
  | _ => rfl

end Literal

theorem Json.object_ne_null (entries : List (String × Json)) : Json.object entries ≠ .null := by
  intro same
  cases same

/-- A document that is neither an array nor the object of a call. -/
def Json.IsLeaf (v : Json) : Prop :=
  (∀ items, v ≠ .array items) ∧
    ∀ entries, v = .object entries → hasKey "function" entries = false

theorem Literal.isLeaf_tagged {tag : String} (other : tag ≠ "function") (text : List Char) :
    (tagged tag text).IsLeaf := by
  constructor
  · intro items same
    cases same
  · intro entries same
    cases same
    simp [hasKey, lookup?, other]

/-- The document of a literal cannot be taken for a list or for a call. -/
theorem Literal.isLeaf_encode (l : Literal) : l.encode.IsLeaf := by
  cases l with
  | date d => exact isLeaf_tagged (by decide) d.text
  | timestamp t => exact isLeaf_tagged (by decide) (t.text 'T')
  | float x =>
      rw [encode, Json.ofBinary64]
      split <;> exact ⟨nofun, nofun⟩
  | _ => exact ⟨nofun, nofun⟩

/-- Items are read back one by one. -/
theorem Decoded.items_map {α β : Type} {decode : Json → Decoded α} {encode : β → Json} {g : β → α}
    {xs : List β} (read : ∀ x ∈ xs, decode (encode x) = .ok (g x)) :
    items decode (xs.map encode) = .ok (xs.map g) := by
  have from_ (i : Nat) : itemsFrom decode i (xs.map encode) = .ok (xs.map g) := by
    induction xs generalizing i with
    | nil => rfl
    | cons x xs ih =>
        have head := read x (by simp)
        have tail := ih (fun y mem => read y (List.mem_cons_of_mem x mem)) (i + 1)
        simp only [List.map_cons, itemsFrom, head, tail, within, Except.mapError, bind, Except.bind,
          pure, Except.pure]
  exact from_ 0

namespace Argument

theorem encodeAll_eq_map (args : List Argument) : encodeAll args = args.map encode := by
  induction args with
  | nil => rw [encodeAll, List.map_nil]
  | cons a args ih => rw [encodeAll, ih, List.map_cons]

/-- Of all literals only a string may be written as a text. -/
theorem decode_leaf {v : Json} (leaf : v.IsLeaf) (notText : ∀ s, v ≠ .string s) :
    decode v = (Literal.decode v).map .literal := by
  cases v with
  | string s => exact absurd rfl (notText s)
  | object entries => rw [decode, if_neg (by simp [leaf.2 entries rfl])]
  | _ => rw [decode] <;> simp

/-- A literal is read back among arguments, also if it is a text in the form of a column. -/
theorem decode_encode_literal {l : Literal} (finite : l.IsFinite) :
    decode (encode (.literal l)) = .ok (.literal l.restored) := by
  have read := Literal.decode_encode finite
  have plain (notText : ∀ s, l.encode ≠ .string s) (same : encode (.literal l) = l.encode) :
      decode (encode (.literal l)) = .ok (.literal l.restored) := by
    rw [same, decode_leaf l.isLeaf_encode notText, read]
    rfl
  cases l with
  | string s =>
      rw [encode]
      by_cases column : Name.isColumnReference s = true
      · have notText : ∀ t, Literal.tagged "string" s.toList ≠ .string t := by
          intro t same
          cases same
        rw [if_pos column, decode_leaf (Literal.isLeaf_tagged (by decide) _) notText,
          Literal.decode_tagged (by decide), String.ofList_toList]
        rfl
      · rw [if_neg column, decode, if_neg column]
        rfl
  | float x =>
      have written : Json.ofBinary64 x = .float x := if_pos finite
      apply plain
      · rw [Literal.encode, written]
        nofun
      · rw [encode]
        nofun
  | _ =>
      apply plain
      · nofun
      · rw [encode]
        nofun

end Argument

/-- A call is read back once its arguments are. -/
theorem Call.decode_encodeWith {function : String} {args : List Argument} {c : Call}
    (made : make function args = .ok c)
    (read : ∀ a ∈ args, Argument.decode a.encode = .ok (a.mapLiterals Literal.restored)) :
    decode (encodeWith function (Argument.encodeAll args)) =
      .ok (c.mapLiterals Literal.restored) := by
  have items : Argument.decodeUnderArgs [("args", .array (Argument.encodeAll args)),
      ("function", .string function)] = .ok (Argument.mapAll Literal.restored args) := by
    rw [Argument.decodeUnderArgs, if_pos rfl, Argument.decodeFrom_eq, Argument.encodeAll_eq_map,
      Argument.mapAll_eq_map]
    exact Decoded.items_map read
  have assembled : assemble [("args", .array (Argument.encodeAll args)),
      ("function", .string function)] (.ok (Argument.mapAll Literal.restored args)) =
        Decoded.ofMade (make function (Argument.mapAll Literal.restored args)) := rfl
  rw [encodeWith, decode, items, assembled, make_mapAll made]
  rfl

theorem Argument.decode_encodeWith (function : String) (items : List Json) :
    decode (Call.encodeWith function items) =
      (Call.decode (Call.encodeWith function items)).map Call.toArgument := by
  have key : hasKey "function" [("args", .array items), ("function", .string function)] = true :=
    rfl
  rw [Call.encodeWith, decode, if_pos key, Call.decode]

/-- The arguments of a call can be read: their numbers can be written, and their columns are named.
-/
theorem Call.arguments_of_make {function : String} {args : List Argument} {c : Call}
    (made : make function args = .ok c) (finite : ∀ l ∈ c.literals, l.IsFinite) :
    ∀ a ∈ args, (∀ l ∈ a.literals, l.IsFinite) ∧
      ∀ name, a = .column name → Name.isColumnReference name = true := by
  obtain ⟨rfl, _, _, columns⟩ := of_make made
  intro a mem
  constructor
  · intro l leaf
    apply finite
    rw [literals, toArgument, Argument.literals]
    exact Argument.mem_literalsOf.mpr ⟨a, mem, leaf⟩
  · rintro name rfl
    exact isColumnReference_of_badColumn? columns mem

/-- An argument is read back wherever a call accepts it. -/
theorem Argument.Built.decode_encode {a : Argument} (built : a.Built) :
    (∀ l ∈ a.literals, l.IsFinite) →
      (∀ name, a = .column name → Name.isColumnReference name = true) →
        decode a.encode = .ok (a.mapLiterals Literal.restored) := by
  induction built with
  | literal l =>
      intro finite _
      rw [mapLiterals]
      exact decode_encode_literal (finite l (by simp [literals]))
  | column name =>
      intro _ column
      rw [encode, decode, if_pos (column name rfl), mapLiterals]
  | @call function args c parts made ih =>
      intro finite _
      have read : ∀ a ∈ args, decode a.encode = .ok (a.mapLiterals Literal.restored) := by
        intro a mem
        obtain ⟨leaves, columns⟩ := Call.arguments_of_make made finite a mem
        exact ih a mem leaves columns
      obtain ⟨rfl, _⟩ := Call.of_make made
      rw [Call.toArgument, encode, decode_encodeWith, Call.decode_encodeWith made read]
      rfl

/-- A call is read back. -/
theorem Call.Built.decode_encode {c : Call} (built : c.Built)
    (finite : ∀ l ∈ c.literals, l.IsFinite) :
    decode c.encode = .ok (c.mapLiterals Literal.restored) := by
  obtain ⟨function, args, parts, made⟩ := built
  have read : ∀ a ∈ args, Argument.decode a.encode = .ok (a.mapLiterals Literal.restored) := by
    intro a mem
    obtain ⟨leaves, columns⟩ := arguments_of_make made finite a mem
    exact (parts a mem).decode_encode leaves columns
  obtain ⟨rfl, _⟩ := of_make made
  rw [encode, toArgument, Argument.encode, decode_encodeWith made read]

/-- The entries of the object of a call. -/
theorem Call.encode_eq (c : Call) :
    c.encode = .object [("args", .array (Argument.encodeAll c.arguments)),
      ("function", .string c.function)] := by
  rw [encode, toArgument, Argument.encode, encodeWith]

/-- What a decoder takes for a call is the object that a call is written to. -/
theorem Call.exists_encode (c : Call) :
    ∃ entries, c.encode = .object entries ∧ hasKey "function" entries = true :=
  ⟨_, c.encode_eq, rfl⟩

theorem Call.encode_ne_null (c : Call) : c.encode ≠ .null := by
  rw [encode_eq]
  exact Json.object_ne_null _

theorem Field.Built.decode_encode {field : Field} (built : field.Built)
    (finite : ∀ l ∈ field.literals, l.IsFinite) :
    decode field.encode = .ok (field.mapLiterals Literal.restored) := by
  cases built with
  | column name => rfl
  | @call c built =>
      have read := built.decode_encode finite
      obtain ⟨entries, object, _⟩ := c.exists_encode
      rw [encode, object, decode, ← object, read]
      rfl

namespace Operand

theorem decode_leaf {v : Json} (leaf : v.IsLeaf) :
    decode v = (Literal.decode v).map ofLiteral := by
  cases v with
  | array items => exact absurd rfl (leaf.1 items)
  | object entries => rw [decode, if_neg (by simp [leaf.2 entries rfl])]
  | _ => rfl

theorem decodeItem_leaf {v : Json} (leaf : v.IsLeaf) : decodeItem v = Literal.decode v := by
  cases v with
  | array items => exact absurd rfl (leaf.1 items)
  | object entries => rw [decodeItem, if_neg (by simp [leaf.2 entries rfl])]
  | _ => rfl

/-- A value is read back in normal form. -/
theorem Built.decode_encode {v : Operand} (built : v.Built)
    (finite : ∀ l ∈ v.allLiterals, l.IsFinite) :
    decode v.encode = .ok (v.normal.mapLiterals Literal.restored) := by
  cases built with
  | absent => rfl
  | scalar l =>
      rw [encode, decode_leaf l.isLeaf_encode,
        Literal.decode_encode (finite l (List.mem_singleton_self l))]
      cases l <;> rfl
  | list items =>
      have read : Decoded.items decodeItem (items.map Literal.encode) =
          .ok (items.map Literal.restored) := by
        apply Decoded.items_map
        intro l mem
        rw [decodeItem_leaf l.isLeaf_encode, Literal.decode_encode (finite l mem)]
      rw [encode, decode, read]
      rfl
  | @call c built =>
      have read := built.decode_encode finite
      obtain ⟨entries, object, key⟩ := c.exists_encode
      rw [encode, object, decode, if_pos key, ← object, read]
      rfl

end Operand

/-! ## Objects with fixed keys -/

namespace Fields

variable {fs : Fields} {key : String} {v : Json}

theorem get?_of_lookup? (found : lookup? key fs.entries = some v) (present : v ≠ .null) :
    fs.get? key = some v := by
  unfold get?
  rw [found]
  cases v <;> first | rfl | exact absurd rfl present

theorem required_of_lookup? (found : lookup? key fs.entries = some v) (present : v ≠ .null) :
    fs.required key = .ok v := by
  rw [required, get?_of_lookup? found present]

end Fields

theorem Decoded.ok_bind {α β : Type} (a : α) (g : α → Decoded β) :
    ((Except.ok a : Decoded α) >>= g) = g a := rfl

theorem Decoded.within_ok {α : Type} (step : Step) (a : α) :
    within step (.ok a : Decoded α) = .ok a := rfl

theorem Field.encode_ne_null (field : Field) : field.encode ≠ .null := by
  cases field with
  | column name => nofun
  | call c => exact c.encode_ne_null

theorem Literal.encode_ne_null {l : Literal} (finite : l.IsFinite) (present : l ≠ .null) :
    l.encode ≠ .null := by
  cases l with
  | null => exact absurd rfl present
  | float x =>
      have written : Json.ofBinary64 x = .float x := if_pos finite
      rw [encode, written]
      nofun
  | _ => nofun

theorem Comparison.decode_symbol (op : Comparison) : Comparison.decode op.symbol = .ok op := by
  rw [Comparison.decode, ofSymbol?_symbol]

/-- Only a missing value is written as null. -/
theorem Operand.encode_ne_null {v : Operand} (finite : ∀ l ∈ v.allLiterals, l.IsFinite)
    (present : v.normal ≠ .absent) : v.encode ≠ .null := by
  cases v with
  | absent => exact absurd rfl present
  | scalar l =>
      apply Literal.encode_ne_null (finite l (List.mem_singleton_self l))
      rintro rfl
      exact present rfl
  | list items => nofun
  | call c => exact c.encode_ne_null

/-- A condition is read back. -/
theorem Condition.Built.decode_encode {c : Condition} (built : c.Built)
    (finite : ∀ l ∈ c.literals, l.IsFinite) :
    decode c.encode = .ok (c.mapLiterals Literal.restored) := by
  obtain ⟨field, op, value, fieldBuilt, valueBuilt, made⟩ := built
  have remade := make_mapLiterals Literal.kind_restored made
  obtain ⟨rfl, _, _⟩ := of_make made
  generalize shape : value.normal = v at remade finite
  have built : v.Built := by
    rw [← shape]
    exact valueBuilt.normal
  have normal : v.normal = v := by
    rw [← shape, Operand.normal_normal]
  have valueFinite : ∀ l ∈ v.allLiterals, l.IsFinite := fun l mem =>
    finite l (List.mem_append_right _ mem)
  have fieldRead := fieldBuilt.decode_encode fun l mem => finite l (List.mem_append_left _ mem)
  have valueRead := built.decode_encode valueFinite
  rw [normal] at valueRead
  have read : Fields.read ["field", "operator", "value"] (encode ⟨field, op, v⟩) =
      .ok ⟨[("field", field.encode), ("operator", .string op.symbol), ("value", v.encode)]⟩ := rfl
  generalize entries : Fields.mk [("field", field.encode), ("operator", .string op.symbol),
    ("value", v.encode)] = fs at read
  have first : fs.required "field" = .ok field.encode := by
    rw [← entries]
    exact Fields.required_of_lookup? rfl field.encode_ne_null
  have symbol : fs.string "operator" = .ok op.symbol := by
    rw [← entries]
    rfl
  unfold decode
  simp only [read, first, symbol, fieldRead, Comparison.decode_symbol, Decoded.ok_bind,
    Decoded.within_ok]
  by_cases absent : v = .absent
  · have missing : fs.get? "value" = none := by
      rw [← entries, absent]
      rfl
    rw [absent] at remade ⊢
    simp only [missing]
    exact congrArg Decoded.ofMade remade
  · have last : fs.get? "value" = some v.encode := by
      rw [← entries]
      exact Fields.get?_of_lookup? rfl (Operand.encode_ne_null valueFinite (by rwa [normal]))
    simp only [last, valueRead, Decoded.within_ok, Decoded.ok_bind]
    exact congrArg Decoded.ofMade remade

/-! ## Predicates -/

theorem Connective.decode_symbol (connective : Connective) :
    Connective.decode connective.symbol = .ok connective := by
  rw [Connective.decode, ofName?_symbol]

theorem Predicate.encodeAll_eq_map (ps : List Predicate) : encodeAll ps = ps.map encode := by
  induction ps with
  | nil => rw [encodeAll, List.map_nil]
  | cons p ps ih => rw [encodeAll, ih, List.map_cons]

/-- A group is read back once its members are. -/
theorem Group.decode_encodeWith {members : List Predicate} {connective : Option Connective}
    {g : Group} (made : make members connective = .ok g)
    (read : ∀ p ∈ g.members, Predicate.decode p.encode = .ok (p.mapLiterals Literal.restored)) :
    decode (encodeWith g.connective (Predicate.encodeAll g.members)) =
      .ok (g.mapLiterals Literal.restored) := by
  have items : Predicate.decodeUnderConditions [("conditions", .array
      (Predicate.encodeAll g.members)), ("logical_operator", .string g.connective.symbol)] =
        .ok (Predicate.mapAll Literal.restored g.members) := by
    rw [Predicate.decodeUnderConditions, if_pos rfl, Predicate.decodeFrom_eq,
      Predicate.encodeAll_eq_map, Predicate.mapAll_eq_map]
    exact Decoded.items_map read
  have fields : Fields.read ["logical_operator", "conditions"] (.object [("conditions", .array
      (Predicate.encodeAll g.members)), ("logical_operator", .string g.connective.symbol)]) =
        .ok ⟨[("conditions", .array (Predicate.encodeAll g.members)),
          ("logical_operator", .string g.connective.symbol)]⟩ := rfl
  have name : Fields.string? ⟨[("conditions", .array (Predicate.encodeAll g.members)),
      ("logical_operator", .string g.connective.symbol)]⟩ "logical_operator" =
        .ok (some g.connective.symbol) := rfl
  have present : Fields.items ⟨[("conditions", .array (Predicate.encodeAll g.members)),
      ("logical_operator", .string g.connective.symbol)]⟩ "conditions" =
        .ok (Predicate.encodeAll g.members) := rfl
  rw [encodeWith, decode, items]
  unfold assemble
  simp only [fields, name, present, Connective.decode_symbol, Decoded.ok_bind, Decoded.within_ok,
    Except.map]
  exact congrArg Decoded.ofMade (make_mapLiterals made)

/-- What tells a group from a condition: it has no operator. -/
theorem Predicate.decode_encodeWith (connective : Connective) (items : List Json) :
    decode (Group.encodeWith connective items) =
      (Group.decode (Group.encodeWith connective items)).map Group.toPredicate := by
  have noOperator : hasKey "operator" [("conditions", .array items),
      ("logical_operator", .string connective.symbol)] = false := rfl
  rw [Group.encodeWith, decode, if_neg (by simp [noOperator]), Group.decode]

theorem Predicate.decode_encode_condition (c : Condition) :
    decode c.encode = (Condition.decode c.encode).map .condition := by
  have operator : hasKey "operator" [("field", c.field.encode), ("operator", .string c.op.symbol),
      ("value", c.value.encode)] = true := rfl
  rw [Condition.encode, decode, if_pos operator]

/-- A predicate is read back. -/
theorem Predicate.Built.decode_encode {p : Predicate} (built : p.Built) :
    (∀ l ∈ p.literals, l.IsFinite) → decode p.encode = .ok (p.mapLiterals Literal.restored) := by
  induction built with
  | @condition c built =>
      intro finite
      have read := built.decode_encode fun l mem => finite l (by simpa [literals, conditions])
      rw [encode, decode_encode_condition, read, mapLiterals]
      rfl
  | @group members connective g parts made ih =>
      intro finite
      have read : ∀ p ∈ g.members, decode p.encode = .ok (p.mapLiterals Literal.restored) := by
        intro p mem
        have member : p ∈ members := (Group.of_make made).1 ▸ mem
        exact ih p member fun l leaf => finite l (Group.mem_literals.mpr ⟨p, mem, leaf⟩)
      rw [Group.toPredicate, encode, decode_encodeWith, Group.decode_encodeWith made read]
      rfl

end RuleQuery
