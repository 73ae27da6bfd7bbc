/-
# Documents

A document is a JSON value. A number is an integer or a double; which of the two it is depends on
how it is written. An object is the list of its entries in increasing order of their keys, so two
objects with the same entries are equal, and "the first key" always means the first in that order.
-/

import RuleQuery.Error
import RuleQuery.NameMap

namespace RuleQuery

open RuleQuery.Number

/-- A JSON value. -/
inductive Json
  | null
  | bool (value : Bool)
  | int (value : Int)
  | float (value : Binary64)
  | string (value : String)
  | array (items : List Json)
  | object (entries : List (String × Json))

namespace Json

instance : Inhabited Json := ⟨.null⟩

mutual

/-- Equality of documents is decided along the tree. -/
def decEq : (a b : Json) → Decidable (a = b)
  | .null, .null => .isTrue rfl
  | .bool a, .bool b => if h : a = b then .isTrue (by rw [h]) else .isFalse (by simp [h])
  | .int a, .int b => if h : a = b then .isTrue (by rw [h]) else .isFalse (by simp [h])
  | .float a, .float b => if h : a = b then .isTrue (by rw [h]) else .isFalse (by simp [h])
  | .string a, .string b => if h : a = b then .isTrue (by rw [h]) else .isFalse (by simp [h])
  | .array as, .array bs =>
    match decEqItems as bs with
    | .isTrue h => .isTrue (by rw [h])
    | .isFalse h => .isFalse (by simp [h])
  | .object as, .object bs =>
    match decEqEntries as bs with
    | .isTrue h => .isTrue (by rw [h])
    | .isFalse h => .isFalse (by simp [h])
  | .null, .bool _ | .null, .int _ | .null, .float _ | .null, .string _ | .null, .array _
  | .null, .object _ | .bool _, .null | .bool _, .int _ | .bool _, .float _ | .bool _, .string _
  | .bool _, .array _ | .bool _, .object _ | .int _, .null | .int _, .bool _ | .int _, .float _
  | .int _, .string _ | .int _, .array _ | .int _, .object _ | .float _, .null | .float _, .bool _
  | .float _, .int _ | .float _, .string _ | .float _, .array _ | .float _, .object _
  | .string _, .null | .string _, .bool _ | .string _, .int _ | .string _, .float _
  | .string _, .array _ | .string _, .object _ | .array _, .null | .array _, .bool _
  | .array _, .int _ | .array _, .float _ | .array _, .string _ | .array _, .object _
  | .object _, .null | .object _, .bool _ | .object _, .int _ | .object _, .float _
  | .object _, .string _ | .object _, .array _ => .isFalse (by simp)

def decEqItems : (as bs : List Json) → Decidable (as = bs)
  | [], [] => .isTrue rfl
  | [], _ :: _ | _ :: _, [] => .isFalse (by simp)
  | a :: as, b :: bs =>
    match decEq a b, decEqItems as bs with
    | .isTrue h, .isTrue h' => .isTrue (by rw [h, h'])
    | .isFalse h, _ => .isFalse (by simp [h])
    | _, .isFalse h => .isFalse (by simp [h])

def decEqEntries : (as bs : List (String × Json)) → Decidable (as = bs)
  | [], [] => .isTrue rfl
  | [], _ :: _ | _ :: _, [] => .isFalse (by simp)
  | (k, a) :: as, (l, b) :: bs =>
    if hk : k = l then
      match decEq a b, decEqEntries as bs with
      | .isTrue h, .isTrue h' => .isTrue (by rw [hk, h, h'])
      | .isFalse h, _ => .isFalse (by simp [h])
      | _, .isFalse h => .isFalse (by simp [h])
    else .isFalse (by simp [hk])

end

instance : DecidableEq Json := decEq

def kind : Json → DocumentKind
  | .null => .null
  | .bool _ => .boolean
  | .int _ | .float _ => .number
  | .string _ => .string
  | .array _ => .array
  | .object _ => .object

/-- A double as a document. What is not a finite number has no written form and becomes null. -/
def ofBinary64 (x : Binary64) : Json :=
  if x.isFinite then .float x else .null

/-- A text or null. -/
def ofString? : Option String → Json
  | some s => .string s
  | none => .null

/-- An array of texts. -/
def ofStrings (texts : List String) : Json :=
  .array (texts.map .string)

/-- The object with the given entries, put in order; of several under one key the last counts. -/
def ofEntries (entries : List (String × Json)) : Json :=
  .object (entries.foldl (fun es e => insertEntry e.1 e.2 es) [])

/-- The value under a key of an object. -/
def get? (key : String) : Json → Option Json
  | .object entries => lookup? key entries
  | _ => none

/-- The value that one step leads to. -/
def step? : Json → Step → Option Json
  | .object entries, .key name => lookup? name entries
  | .array items, .index i => items[i]?
  | _, _ => none

/-- The value that a sequence of steps leads to. -/
def walk? (v : Json) : List Step → Option Json
  | [] => some v
  | s :: steps => (v.step? s).bind fun w => w.walk? steps

end Json

end RuleQuery
