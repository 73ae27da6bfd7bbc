/-
# Tables, joins and select fields in documents

Each of these is an object with a fixed set of keys. An alias may be missing, and so may the choice
whether `AS` stands before the alias of a join, which then does.
-/

import RuleQuery.Document.Call
import RuleQuery.Select

namespace RuleQuery

namespace TableRef

/-- The document for a table. -/
def encode (t : TableRef) : Json :=
  .object [("alias", .ofString? t.aliasName), ("name", .string t.name)]

/-- The table of a document. -/
def decode (v : Json) : Decoded TableRef := do
  let fs ← Fields.read ["name", "alias"] v
  let name ← fs.string "name"
  let aliasName ← fs.string? "alias"
  Decoded.ofMade (make name aliasName)

end TableRef

/-- The kind of join that a text names. -/
def JoinKind.decode (s : String) : Decoded JoinKind :=
  match JoinKind.ofName? s with
  | some kind => .ok kind
  | none => .refuse (.unknownJoinKind s)

namespace Join

/-- The document for a join. -/
def encode (j : Join) : Json :=
  .object [("alias", .ofString? j.aliasName), ("on", .string j.condition),
    ("table", .string j.table), ("type", .string j.kind.symbol), ("use_as", .bool j.useAs)]

/-- The join of a document. -/
def decode (v : Json) : Decoded Join := do
  let fs ← Fields.read ["type", "table", "alias", "on", "use_as"] v
  let name ← fs.string "type"
  let kind ← Decoded.within (.key "type") (JoinKind.decode name)
  let table ← fs.string "table"
  let aliasName ← fs.string? "alias"
  let condition ← fs.string "on"
  let join ← Decoded.ofMade (make kind table aliasName condition)
  let useAs ← fs.bool? "use_as"
  return { join with useAs := useAs.getD true }

end Join

/-- The document for what a field selects. -/
def Selected.encode : Selected → Json
  | .raw text => .string text
  | .call c => c.encode

/-- What the field of a document selects. -/
def Selected.decode : Json → Decoded Selected
  | .string s => .ok (.raw s)
  | .object entries => (Call.decode (.object entries)).map .call
  | v => .refuse (.expected "a string or an expression object" v.kind)

namespace SelectField

/-- The document for a field of the select list. -/
def encode (f : SelectField) : Json :=
  .object [("alias", .ofString? f.aliasName), ("expression", f.expression.encode)]

/-- The field of a document. -/
def decode (v : Json) : Decoded SelectField := do
  let fs ← Fields.read ["expression", "alias"] v
  let raw ← fs.required "expression"
  let expression ← Decoded.within (.key "expression") (Selected.decode raw)
  let aliasName ← fs.string? "alias"
  Decoded.ofMade (make expression aliasName)

end SelectField

namespace Select

/-- The document for a select list. -/
def encode (s : Select) : Json :=
  .object [("fields", .array (s.fields.map SelectField.encode))]

/-- The select list of a document. -/
def decode (v : Json) : Decoded Select := do
  let fs ← Fields.read ["fields"] v
  let items ← fs.items "fields"
  let fields ← Decoded.within (.key "fields") (Decoded.items SelectField.decode items)
  Decoded.ofMade (make fields)

end Select

end RuleQuery
