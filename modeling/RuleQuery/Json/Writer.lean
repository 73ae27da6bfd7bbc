/-
# Writing JSON text

A document is written on one line, or with every item and every entry on a line of its own and two
spaces of indentation for each level. In strings, quotes, backslashes and control characters are
escaped, and nothing else.
-/

import RuleQuery.Json.Basic
import RuleQuery.Number.Layout

namespace RuleQuery.Json

open RuleQuery.Number

/-- A lower-case hexadecimal digit. -/
def hexDigit (n : Nat) : Char :=
  if n < 10 then Char.ofNat ('0'.toNat + n) else Char.ofNat ('a'.toNat + n - 10)

/-- A character inside a string. -/
def escapeChar (c : Char) : List Char :=
  match c with
  | '"' => ['\\', '"']
  | '\\' => ['\\', '\\']
  | '\x08' => ['\\', 'b']
  | '\x0c' => ['\\', 'f']
  | '\n' => ['\\', 'n']
  | '\r' => ['\\', 'r']
  | '\t' => ['\\', 't']
  | c =>
    if c.toNat < 0x20 then ['\\', 'u', '0', '0', hexDigit (c.toNat / 16), hexDigit (c.toNat % 16)]
    else [c]

/-- A string with its quotes. -/
def stringText (s : String) : List Char :=
  '"' :: s.toList.flatMap escapeChar ++ ['"']

/-- The text of what is not a container. -/
def scalarText : Json → List Char
  | .bool true => ['t', 'r', 'u', 'e']
  | .bool false => ['f', 'a', 'l', 's', 'e']
  | .int n => (integerText n).toList
  | .float x => if x.isFinite then (Layout.document.text x).toList else ['n', 'u', 'l', 'l']
  | .string s => stringText s
  | _ => ['n', 'u', 'l', 'l']

mutual

/-- The text of a document on one line. -/
def compactText : Json → List Char
  | .array items => '[' :: compactItems items ++ [']']
  | .object entries => '\x7b' :: compactEntries entries ++ ['\x7d']
  | v => scalarText v

def compactItems : List Json → List Char
  | [] => []
  | [v] => compactText v
  | v :: vs => compactText v ++ ',' :: compactItems vs

def compactEntries : List (String × Json) → List Char
  | [] => []
  | [(key, v)] => stringText key ++ ':' :: compactText v
  | (key, v) :: es => stringText key ++ ':' :: compactText v ++ ',' :: compactEntries es

end

/-- A line break and the indentation of a level. -/
def newLine (level : Nat) : List Char :=
  '\n' :: List.replicate (2 * level) ' '

mutual

/-- The text of a document on several lines, at a level of indentation. -/
def prettyText (level : Nat) : Json → List Char
  | .array [] => ['[', ']']
  | .array (v :: vs) => '[' :: prettyItems (level + 1) (v :: vs) ++ newLine level ++ [']']
  | .object [] => ['\x7b', '\x7d']
  | .object (e :: es) =>
    '\x7b' :: prettyEntries (level + 1) (e :: es) ++ newLine level ++ ['\x7d']
  | v => scalarText v

def prettyItems (level : Nat) : List Json → List Char
  | [] => []
  | [v] => newLine level ++ prettyText level v
  | v :: vs => newLine level ++ prettyText level v ++ ',' :: prettyItems level vs

def prettyEntries (level : Nat) : List (String × Json) → List Char
  | [] => []
  | [(key, v)] => newLine level ++ stringText key ++ ':' :: ' ' :: prettyText level v
  | (key, v) :: es =>
    newLine level ++ stringText key ++ ':' :: ' ' :: prettyText level v ++
      ',' :: prettyEntries level es

end

/-- The text of a document on one line. -/
def compact (v : Json) : String := String.ofList (compactText v)

/-- The text of a document on several lines. -/
def pretty (v : Json) : String := String.ofList (prettyText 0 v)

end RuleQuery.Json
