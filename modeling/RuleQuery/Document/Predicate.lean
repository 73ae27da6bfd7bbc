/-
# Predicates in documents

An object with an entry for the operator is a condition; any other object is a group. A group is an
object with its members and their connective, which may be missing for a single member. The WHERE
clause is an object with its members, which may be missing.
-/

import RuleQuery.Document.Condition
import RuleQuery.Predicate

namespace RuleQuery

/-- The object of a group whose members are documents already. -/
def Group.encodeWith (connective : Connective) (members : List Json) : Json :=
  .object [("conditions", .array members), ("logical_operator", .string connective.symbol)]

/-- The connective that a text names. -/
def Connective.decode (s : String) : Decoded Connective :=
  match Connective.ofName? s with
  | some c => .ok c
  | none => .refuse (.unknownConnective s)

/-- The group of an object, given what its members decode to. -/
def Group.assemble (entries : List (String × Json)) (members : Decoded (List Predicate)) :
    Decoded Group := do
  let fs ← Fields.read ["logical_operator", "conditions"] (.object entries)
  let name ← fs.string? "logical_operator"
  let connective ← match name with
    | some s => (Decoded.within (.key "logical_operator") (Connective.decode s)).map some
    | none => .ok none
  let _ ← fs.items "conditions"
  let members ← Decoded.within (.key "conditions") members
  Decoded.ofMade (Group.make members connective)

namespace Predicate

mutual

/-- The document for a predicate. -/
def encode : Predicate → Json
  | .condition c => c.encode
  | .group connective members => Group.encodeWith connective (encodeAll members)

def encodeAll : List Predicate → List Json
  | [] => []
  | p :: ps => p.encode :: encodeAll ps

end

mutual

/-- The predicate of a document. -/
def decode : Json → Decoded Predicate
  | .object entries =>
    if hasKey "operator" entries then (Condition.decode (.object entries)).map .condition
    else (Group.assemble entries (decodeUnderConditions entries)).map Group.toPredicate
  | v => .refuse (.expected "a condition or group object" v.kind)

/-- The predicates of the items of an array, the first of which has index `i`. -/
def decodeFrom (i : Nat) : List Json → Decoded (List Predicate)
  | [] => .ok []
  | v :: vs => do
    let p ← Decoded.within (.index i) (decode v)
    let ps ← decodeFrom (i + 1) vs
    return p :: ps

/-- The predicates of the array under the key for members, if the entries have one. -/
def decodeUnderConditions : List (String × Json) → Decoded (List Predicate)
  | [] => .ok []
  | (key, .array items) :: rest =>
    if key = "conditions" then decodeFrom 0 items else decodeUnderConditions rest
  | _ :: rest => decodeUnderConditions rest

end

/-- Decoding the items of an array one by one. -/
theorem decodeFrom_eq (i : Nat) (vs : List Json) :
    decodeFrom i vs = Decoded.itemsFrom decode i vs := by
  induction vs generalizing i with
  | nil => simp [decodeFrom, Decoded.itemsFrom]
  | cons v vs ih => simp [decodeFrom, Decoded.itemsFrom, ih]

end Predicate

namespace Group

/-- The document for a group. -/
def encode (g : Group) : Json := g.toPredicate.encode

/-- The group of a document. -/
def decode : Json → Decoded Group
  | .object entries => assemble entries (Predicate.decodeUnderConditions entries)
  | v => .refuse (.expected "an object" v.kind)

end Group

namespace WhereClause

/-- The document for the clause. -/
def encode (w : WhereClause) : Json :=
  .object [("where", .array (Predicate.encodeAll w.members))]

/-- The clause of a document. -/
def decode (v : Json) : Decoded WhereClause := do
  let fs ← Fields.read ["where"] v
  let items ← fs.items? "where"
  let members ← Decoded.within (.key "where") (Decoded.items Predicate.decode items)
  return ⟨members⟩

end WhereClause

end RuleQuery
