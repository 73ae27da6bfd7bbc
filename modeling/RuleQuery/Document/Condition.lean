/-
# Conditions in documents

A condition is an object with a field, an operator and a value. The field is a column or the object
of a call. The value is a literal, an array of literals, the object of a call, or missing.
-/

import RuleQuery.Condition
import RuleQuery.Document.Call

namespace RuleQuery

/-- The document for a field. -/
def Field.encode : Field → Json
  | .column name => .string name
  | .call c => c.encode

/-- The field of a document. -/
def Field.decode : Json → Decoded Field
  | .string s => .ok (.column s)
  | .object entries => (Call.decode (.object entries)).map .call
  | v => .refuse (.expected "a string or an expression object" v.kind)

namespace Operand

/-- The document for a value. -/
def encode : Operand → Json
  | .absent => .null
  | .scalar l => l.encode
  | .list items => .array (items.map Literal.encode)
  | .call c => c.encode

/-- An item of a list of literals. -/
def decodeItem : Json → Decoded Literal
  | .array _ => .refuse .nestedList
  | .object entries =>
    if hasKey "function" entries then .refuse (.listElement .object)
    else Literal.decode (.object entries)
  | v => Literal.decode v

/-- The value of a document. -/
def decode : Json → Decoded Operand
  | .array items => (Decoded.items decodeItem items).map .list
  | .object entries =>
    if hasKey "function" entries then (Call.decode (.object entries)).map .call
    else (Literal.decode (.object entries)).map ofLiteral
  | v => (Literal.decode v).map ofLiteral

end Operand

/-- The comparison that a text spells. -/
def Comparison.decode (s : String) : Decoded Comparison :=
  match Comparison.ofSymbol? s with
  | some op => .ok op
  | none => .refuse (.unknownOperator s)

namespace Condition

/-- The document for a condition. -/
def encode (c : Condition) : Json :=
  .object [("field", c.field.encode), ("operator", .string c.op.symbol),
    ("value", c.value.encode)]

/-- The condition of a document. -/
def decode (v : Json) : Decoded Condition := do
  let fs ← Fields.read ["field", "operator", "value"] v
  let raw ← fs.required "field"
  let field ← Decoded.within (.key "field") (Field.decode raw)
  let symbol ← fs.string "operator"
  let op ← Decoded.within (.key "operator") (Comparison.decode symbol)
  let value ← match fs.get? "value" with
    | some raw => Decoded.within (.key "value") (Operand.decode raw)
    | none => .ok .absent
  Decoded.ofMade (make field op value)

end Condition

end RuleQuery
