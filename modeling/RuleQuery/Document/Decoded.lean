/-
# Decoding, and where it fails

A decoder takes a document and gives a node or a failure. A failure of shape carries the steps from
the document it was given to the value that does not fit; each decoder that goes into a part of its
document puts its own step in front of the failure of that part. So the steps of a failure never
depend on where the document came from, and its place is named only at the very end, by the text of
the starting place followed by the text of the steps. A failure of a node's own rules has no place.

Objects are read strictly: a key that is not among the allowed ones is a failure. An entry that is
null counts as missing.
-/

import RuleQuery.Json.Basic

namespace RuleQuery

/-- Why a document could not be decoded. -/
inductive Failure
  | mismatch (steps : List Step) (cause : Mismatch)
  | defect (cause : Defect)
  deriving DecidableEq

/-- The outcome of decoding. -/
abbrev Decoded (α : Type) := Except Failure α

/-- The failure of a part, seen from the document that it is a part of. -/
def Failure.under (step : Step) : Failure → Failure
  | .mismatch steps cause => .mismatch (step :: steps) cause
  | .defect cause => .defect cause

/-- The error for a failure in a document that stands at the given place. -/
def Failure.toError (base : String) : Failure → RuleError
  | .mismatch steps cause => .document (locationText base steps) cause
  | .defect cause => .structural cause

namespace Decoded

variable {α : Type}

/-- The document itself does not fit. -/
def refuse (cause : Mismatch) : Decoded α := .error (.mismatch [] cause)

/-- The outcome for a part, seen from the document that it is a part of. -/
def within (step : Step) (d : Decoded α) : Decoded α := d.mapError (Failure.under step)

/-- The outcome of making a node. -/
def ofMade (r : Except Defect α) : Decoded α := r.mapError Failure.defect

/-- The outcome for a document that stands at the given place. -/
def located (base : String) (d : Decoded α) : Except RuleError α :=
  d.mapError (Failure.toError base)

/-- Decode the items of an array, the first of which has index `i`. -/
def itemsFrom (decode : Json → Decoded α) (i : Nat) : List Json → Decoded (List α)
  | [] => .ok []
  | v :: vs => do
    let a ← within (.index i) (decode v)
    let as ← itemsFrom decode (i + 1) vs
    return a :: as

/-- Decode the items of an array. -/
def items (decode : Json → Decoded α) (vs : List Json) : Decoded (List α) :=
  itemsFrom decode 0 vs

end Decoded

/-- The place where a whole document stands. -/
def documentRoot : String := "$"

/-- A text, as an item of an array. -/
def decodeString : Json → Decoded String
  | .string s => .ok s
  | v => .refuse (.expected "a string" v.kind)

/-- The entries of an object whose keys are all allowed. -/
structure Fields where
  entries : List (String × Json)

namespace Fields

/-- The entries of a document that has to be an object with allowed keys only. -/
def read (allowed : List String) : Json → Decoded Fields
  | .object entries =>
    match entries.find? fun e => !allowed.contains e.1 with
    | some e => .refuse (.unknownKey e.1)
    | none => .ok ⟨entries⟩
  | v => .refuse (.expected "an object" v.kind)

/-- The value under a key, if it is there and not null. -/
def get? (fs : Fields) (key : String) : Option Json :=
  match lookup? key fs.entries with
  | some .null => none
  | v => v

/-- The value under a key that has to be there. -/
def required (fs : Fields) (key : String) : Decoded Json :=
  match fs.get? key with
  | some v => .ok v
  | none => .refuse (.missingKey key)

/-- The value under a key is of another kind than expected. -/
def wrongKind {α : Type} (key what : String) (v : Json) : Decoded α :=
  .within (.key key) (.refuse (.expected what v.kind))

/-- The text under a key. -/
def string (fs : Fields) (key : String) : Decoded String := do
  match ← fs.required key with
  | .string s => return s
  | v => wrongKind key "a string" v

/-- The text under a key that may be missing. -/
def string? (fs : Fields) (key : String) : Decoded (Option String) :=
  match fs.get? key with
  | none => .ok none
  | some (.string s) => .ok (some s)
  | some v => wrongKind key "a string" v

/-- The truth value under a key that may be missing. -/
def bool? (fs : Fields) (key : String) : Decoded (Option Bool) :=
  match fs.get? key with
  | none => .ok none
  | some (.bool b) => .ok (some b)
  | some v => wrongKind key "a boolean" v

/-- The items of the array under a key. -/
def items (fs : Fields) (key : String) : Decoded (List Json) := do
  match ← fs.required key with
  | .array vs => return vs
  | v => wrongKind key "an array" v

/-- The items of the array under a key that may be missing; then there are none. -/
def items? (fs : Fields) (key : String) : Decoded (List Json) :=
  match fs.get? key with
  | none => .ok []
  | some _ => fs.items key

end Fields

/-- Whether an object has an entry under a key, be it null. -/
def hasKey (key : String) (entries : List (String × Json)) : Bool :=
  (lookup? key entries).isSome

end RuleQuery
