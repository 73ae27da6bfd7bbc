/-
# Literals in documents

Null, truth values, numbers and texts stand for themselves. Dates and timestamps have no form of
their own in a document and are written as objects with one entry that names the type. A text may be
written that way too, which matters where a plain text would be read as a column.
-/

import RuleQuery.Document.Decoded

namespace RuleQuery.Literal

open RuleQuery.Number RuleQuery.Calendar

/-- The names of the types that a tagged literal may have. -/
def tags : List String := ["date", "timestamp", "string"]

/-- A literal with the name of its type. -/
def tagged (tag : String) (text : List Char) : Json :=
  .object [(tag, .string (String.ofList text))]

/-- The document for a literal. A timestamp is written to the second. -/
def encode : Literal → Json
  | .null => .null
  | .bool b => .bool b
  | .int n => .int n.toInt
  | .float x => .ofBinary64 x
  | .string s => .string s
  | .date d => tagged "date" d.text
  | .timestamp t => tagged "timestamp" (t.text 'T')

/-- The literal of a tag and its text. -/
def ofTag (tag text : String) : Decoded Literal :=
  match tag with
  | "date" =>
    match readDate? text with
    | some d => .ok (.date d)
    | none => .within (.key tag) (.refuse (.invalidDate text))
  | "timestamp" =>
    match readTimestamp? text with
    | some t => .ok (.timestamp t)
    | none => .within (.key tag) (.refuse (.invalidTimestamp text))
  | _ => .ok (.string text)

/-- A literal with the name of its type; exactly one of the names has to be there. -/
def decodeTagged (v : Json) : Decoded Literal := do
  let fs ← Fields.read tags v
  match tags.filter fun tag => (fs.get? tag).isSome with
  | [tag] =>
    let text ← fs.string tag
    ofTag tag text
  | _ => .refuse .ambiguousTag

/-- An integer beyond 64 bits is read as the nearest double. -/
def ofInteger (n : Int) : Literal :=
  if isInt64 n then .int (Int64.ofInt n) else .float (Binary64.ofInt n)

/-- The literal of a document. -/
def decode : Json → Decoded Literal
  | .null => .ok .null
  | .bool b => .ok (.bool b)
  | .int n => .ok (ofInteger n)
  | .float x => .ok (.float x)
  | .string s => .ok (.string s)
  | .object entries => decodeTagged (.object entries)
  | .array _ => .refuse (.expected "a literal" .array)

end RuleQuery.Literal
