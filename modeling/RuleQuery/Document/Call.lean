/-
# Calls in documents

A call is an object with the name of the function and its arguments. Among the arguments, a text
with the form of a column reference is a column, an object with an entry for the function is a call,
and anything else is a literal; a string literal with the form of a column reference is therefore
written with its tag.
-/

import RuleQuery.Call
import RuleQuery.Document.Literal

namespace RuleQuery

/-- The object of a call whose arguments are documents already. -/
def Call.encodeWith (function : String) (args : List Json) : Json :=
  .object [("args", .array args), ("function", .string function)]

/-- The call of an object, given what its arguments decode to. -/
def Call.assemble (entries : List (String × Json)) (args : Decoded (List Argument)) :
    Decoded Call := do
  let fs ← Fields.read ["function", "args"] (.object entries)
  let function ← fs.string "function"
  let _ ← fs.items "args"
  let args ← Decoded.within (.key "args") args
  Decoded.ofMade (Call.make function args)

namespace Argument

mutual

/-- The document for an argument. -/
def encode : Argument → Json
  | .column name => .string name
  | .literal (.string s) =>
    if Name.isColumnReference s then Literal.tagged "string" s.toList else .string s
  | .literal l => l.encode
  | .call f args => Call.encodeWith f (encodeAll args)

def encodeAll : List Argument → List Json
  | [] => []
  | a :: as => a.encode :: encodeAll as

end

mutual

/-- The argument of a document. -/
def decode : Json → Decoded Argument
  | .string s => .ok (if Name.isColumnReference s then .column s else .literal (.string s))
  | .object entries =>
    if hasKey "function" entries then
      (Call.assemble entries (decodeUnderArgs entries)).map Call.toArgument
    else (Literal.decode (.object entries)).map .literal
  | v => (Literal.decode v).map .literal

/-- The arguments of the items of an array, the first of which has index `i`. -/
def decodeFrom (i : Nat) : List Json → Decoded (List Argument)
  | [] => .ok []
  | v :: vs => do
    let a ← Decoded.within (.index i) (decode v)
    let as ← decodeFrom (i + 1) vs
    return a :: as

/-- The arguments of the array under the key for arguments, if the entries have one. -/
def decodeUnderArgs : List (String × Json) → Decoded (List Argument)
  | [] => .ok []
  | (key, .array items) :: rest =>
    if key = "args" then decodeFrom 0 items else decodeUnderArgs rest
  | _ :: rest => decodeUnderArgs rest

end

/-- Decoding the items of an array one by one. -/
theorem decodeFrom_eq (i : Nat) (vs : List Json) :
    decodeFrom i vs = Decoded.itemsFrom decode i vs := by
  induction vs generalizing i with
  | nil => simp [decodeFrom, Decoded.itemsFrom]
  | cons v vs ih => simp [decodeFrom, Decoded.itemsFrom, ih]

end Argument

namespace Call

/-- The document for a call. -/
def encode (c : Call) : Json := c.toArgument.encode

/-- The call of a document. -/
def decode : Json → Decoded Call
  | .object entries => assemble entries (Argument.decodeUnderArgs entries)
  | v => .refuse (.expected "an object" v.kind)

end Call

end RuleQuery
