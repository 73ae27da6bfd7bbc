/-
# Configurations in documents

A configuration is an object with an entry for each of its parts; all but the select list and the
table may be missing. Parameters are declared in an object of their own, whose keys are the names.
The default of a parameter is a literal, and a text given as the default of a parameter that does
not hold texts is read by the parameter's kind.
-/

import RuleQuery.Configuration
import RuleQuery.Document.Clause
import RuleQuery.Document.Predicate
import RuleQuery.Json.Reader
import RuleQuery.Json.Writer

namespace RuleQuery

/-- The kind of parameter that a text names. -/
def ParameterKind.decode (s : String) : Decoded ParameterKind :=
  match ParameterKind.ofName? s with
  | some kind => .ok kind
  | none => .refuse (.unknownParameterKind s)

namespace Parameter

/-- An entry for a value that may be missing. -/
def optionalEntry (key : String) (v : Option Json) : List (String × Json) :=
  v.toList.map fun v => (key, v)

/-- The document for a declaration. -/
def encode (p : Parameter) : Json :=
  .object (optionalEntry "default" (p.default.map Literal.encode)
    ++ optionalEntry "description" (p.description.map .string)
    ++ [("required", .bool p.required), ("type", .string p.kind.name)]
    ++ optionalEntry "values" (p.values.map .ofStrings))

/-- The default of a parameter of the given kind. -/
def decodeDefault (kind : ParameterKind) (v : Json) : Decoded Literal := do
  match ← Literal.decode v with
  | .string s =>
    if kind.isTextual then return .string s
    else match kind.readValue? s with
      | some l => return l
      | none => .refuse (.wrongDefault kind s)
  | l => return l

/-- The declaration of a document. -/
def decode (v : Json) : Decoded Parameter := do
  let fs ← Fields.read ["type", "required", "default", "description", "values"] v
  let name ← fs.string "type"
  let kind ← Decoded.within (.key "type") (ParameterKind.decode name)
  let default ← match fs.get? "default" with
    | some raw => (Decoded.within (.key "default") (decodeDefault kind raw)).map some
    | none => .ok none
  let values ← match fs.get? "values" with
    | some _ => do
      let items ← fs.items "values"
      (Decoded.within (.key "values") (Decoded.items decodeString items)).map some
    | none => .ok none
  let required ← fs.bool? "required"
  let description ← fs.string? "description"
  return ⟨kind, required.getD false, default, description, values⟩

end Parameter

/-- The declarations of the entries of an object, added to those read before. -/
def Declarations.decodeEntries (declared : Declarations) :
    List (String × Json) → Decoded Declarations
  | [] => .ok declared
  | (name, v) :: rest => do
    let p ← Decoded.within (.key name) (Parameter.decode v)
    decodeEntries (declared.insert name p) rest

/-- The declarations of a document. -/
def Declarations.decode : Json → Decoded Declarations
  | .object entries => decodeEntries .empty entries
  | v => .refuse (.expected "an object" v.kind)

/-- The document for declarations. -/
def Declarations.encode (declared : Declarations) : Json :=
  .object (declared.entries.map fun e => (e.1, e.2.encode))

namespace Configuration

/-- The keys of a configuration. -/
def keys : List String :=
  ["select", "from_table", "joins", "conditions", "group_by", "having", "order_by", "parameters"]

/-- The document for a configuration. -/
def encode (c : Configuration) : Json :=
  .object ([("conditions", c.conditions.encode),
      ("from_table", c.table.encode),
      ("group_by", .ofStrings c.groupBy),
      ("having", .array (c.having.map Condition.encode)),
      ("joins", .array (c.joins.map Join.encode)),
      ("order_by", .ofStrings c.orderBy)]
    ++ (if c.parameters.isEmpty then [] else [("parameters", Declarations.encode c.parameters)])
    ++ [("select", c.select.encode)])

/-- The items under a key that may be missing, decoded one by one. -/
def decodeList {α : Type} (fs : Fields) (key : String) (decode : Json → Decoded α) :
    Decoded (List α) := do
  let items ← fs.items? key
  Decoded.within (.key key) (Decoded.items decode items)

/-- The configuration of a document. -/
def decode (v : Json) : Decoded Configuration := do
  let fs ← Fields.read keys v
  let select ← fs.required "select"
  let select ← Decoded.within (.key "select") (Select.decode select)
  let table ← fs.required "from_table"
  let table ← Decoded.within (.key "from_table") (TableRef.decode table)
  let joins ← decodeList fs "joins" Join.decode
  let conditions ← match fs.get? "conditions" with
    | some raw => Decoded.within (.key "conditions") (WhereClause.decode raw)
    | none => .ok .empty
  let groupBy ← decodeList fs "group_by" decodeString
  let orderBy ← decodeList fs "order_by" decodeString
  let having ← decodeList fs "having" Condition.decode
  let parameters ← match fs.get? "parameters" with
    | some raw => Decoded.within (.key "parameters") (Declarations.decode raw)
    | none => .ok .empty
  return ⟨select, table, joins, conditions, groupBy, having, orderBy, parameters⟩

/-- The configuration of a document that stands on its own. -/
def ofDocument (v : Json) : Except RuleError Configuration :=
  (decode v).located documentRoot

/-- The text of a configuration. -/
def toText (c : Configuration) : String := c.encode.pretty

/-- Read a configuration from text. -/
def ofText (s : String) : Except RuleError Configuration :=
  match Json.read? s with
  | some v => ofDocument v
  | none => .error (.document documentRoot .invalidText)

end Configuration

end RuleQuery
