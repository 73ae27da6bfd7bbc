/-
# Names that go into SQL as they are

Column names, function names, table names and aliases are copied into the statement without
quoting, so the patterns here decide what can enter it that way. They are patterns over ASCII: a
name that fits one holds letters, digits, underscores and, for dotted names, points, and nothing
else. A placeholder is a text that consists of a name in doubled braces.
-/

import RuleQuery.Text.Blank

namespace RuleQuery.Name

/-- A letter or an underscore. -/
def isStart (c : Char) : Bool :=
  c.isAlpha || c == '_'

/-- A letter, a digit or an underscore. -/
def isPart (c : Char) : Bool :=
  c.isAlphanum || c == '_'

/-- A letter, a digit, an underscore or a point. -/
def isDottedPart (c : Char) : Bool :=
  isPart c || c == '.'

/-- A start character followed by parts: the form of aliases, functions and parameters. -/
def isIdentifierChars : List Char → Bool
  | [] => false
  | c :: cs => isStart c && cs.all isPart

/-- A start character followed by parts and points: the form of columns and tables. -/
def isDottedChars : List Char → Bool
  | [] => false
  | c :: cs => isStart c && cs.all isDottedPart

def isIdentifier (s : String) : Bool := isIdentifierChars s.toList

def isDotted (s : String) : Bool := isDottedChars s.toList

/-- A dotted name, a star, or a dotted name followed by a point and a star. -/
def isColumnReference (s : String) : Bool :=
  match s.toList.reverse with
  | ['*'] => true
  | '*' :: '.' :: qualifier => isDottedChars qualifier.reverse
  | name => isDottedChars name.reverse

/-- The name in a placeholder, if the text is one. -/
def placeholder? (s : String) : Option String :=
  match s.toList with
  | '\x7b' :: '\x7b' :: rest =>
    match rest.reverse with
    | '\x7d' :: '\x7d' :: name =>
      if isIdentifierChars name.reverse then some (String.ofList name.reverse) else none
    | _ => none
  | _ => none

/-- The placeholder for a name. -/
def placeholder (name : String) : String :=
  "\x7b\x7b" ++ name ++ "\x7d\x7d"

/-- Every identifier is a dotted name. -/
theorem isDottedChars_of_isIdentifierChars {cs : List Char} (h : isIdentifierChars cs = true) :
    isDottedChars cs = true := by
  cases cs with
  | nil => simp [isIdentifierChars] at h
  | cons c cs =>
    simp only [isIdentifierChars, isDottedChars, Bool.and_eq_true, List.all_eq_true] at h ⊢
    exact ⟨h.1, fun d mem => by simp [isDottedPart, h.2 d mem]⟩

end RuleQuery.Name
