/-
# Checking SQL text

A cheap check of arbitrary SQL text, over its tokens. It looks for the signs of a statement that is
cut short or tampered with, and warns of some that are merely unwise. Every finding is a
constructor, and the order in which findings are reported is the order of the parts of `Report.of`.
-/

import RuleQuery.Settings
import RuleQuery.Sql.Lexeme
import RuleQuery.Text.Blank
import RuleQuery.Text.Letters
import RuleQuery.Number.Digits

namespace RuleQuery.Sql

namespace Token

/-- Whether a token is a given keyword, in any case. -/
def isKeyword (keyword : String) : Token → Bool
  | .word w => Text.sameLetters w keyword
  | _ => false

def isAnyKeyword (keywords : List String) (t : Token) : Bool :=
  keywords.any fun keyword => t.isKeyword keyword

def isBlockComment : Token → Bool
  | .blockComment _ => true
  | _ => false

def isComment : Token → Bool
  | .lineComment | .blockComment _ => true
  | _ => false

end Token

/-- The words a statement may start with. -/
def leadingKeywords : List String :=
  ["SELECT", "INSERT", "UPDATE", "DELETE", "WITH", "CREATE", "ALTER", "DROP"]

/-- The words of statements that must not follow a semicolon. -/
def stackedKeywords : List String :=
  ["DROP", "DELETE", "INSERT", "UPDATE", "CREATE", "ALTER"]

/-- The words that cannot end a statement. -/
def danglingKeywords : List String :=
  ["SELECT", "FROM", "WHERE", "HAVING"]

/-- The words that end the table list of FROM. -/
def listEndKeywords : List String :=
  ["WHERE", "GROUP", "ORDER", "HAVING", "LIMIT", "UNION", "JOIN"]

/-- What makes a text look like an attack. -/
inductive Danger
  | stackedStatement
  | unionSelect
  | trailingComment
  | blockComment
  deriving DecidableEq, Repr

def Danger.name : Danger → String
  | .stackedStatement => "stacked statement after ';'"
  | .unionSelect => "UNION SELECT"
  | .trailingComment => "trailing '--' comment"
  | .blockComment => "'/* */' block comment"

/-- What makes a text invalid. -/
inductive Fault
  | empty
  | badStart
  | noFrom
  | danglingKeyword
  | dangerous (danger : Danger)
  | unbalanced (opening closing : Nat)
  | closedTooEarly
  | openQuote
  | openDoubleQuote
  | numberedName (word : String)
  deriving DecidableEq, Repr

def Fault.message : Fault → String
  | .empty => "SQL query cannot be empty"
  | .badStart => "SQL must start with a valid command (SELECT, INSERT, UPDATE, DELETE, etc.)"
  | .noFrom => "SELECT statement must contain a FROM clause"
  | .danglingKeyword => "SQL keywords cannot be at the end without proper clauses"
  | .dangerous danger => "Potentially dangerous SQL pattern detected: " ++ danger.name
  | .unbalanced opening closing =>
    "Mismatched parentheses: " ++ Number.integerText opening ++ " opening, "
      ++ Number.integerText closing ++ " closing"
  | .closedTooEarly => "Closing parenthesis without matching opening parenthesis"
  | .openQuote => "Unmatched single quotes in SQL"
  | .openDoubleQuote => "Unmatched double quotes in SQL"
  | .numberedName word =>
    "Invalid identifier: identifiers cannot start with numbers (" ++ word ++ ")"

/-- What makes a text unwise. -/
inductive Warning
  | selectStar
  | changesAllRows
  | cartesianProduct
  | veryLong (length : Nat)
  deriving DecidableEq, Repr

def Warning.message : Warning → String
  | .selectStar => "Using SELECT * might be inefficient; consider specifying columns explicitly"
  | .changesAllRows => "UPDATE/DELETE without WHERE clause will affect all rows"
  | .cartesianProduct => "Multiple tables without explicit JOIN might create Cartesian product"
  | .veryLong length =>
    "Very long SQL query (" ++ Number.integerText length
      ++ " characters); consider breaking into smaller parts"

/-- The finding, if the condition holds. -/
def onlyIf {α : Type} (condition : Bool) (finding : α) : List α :=
  if condition then [finding] else []

/-- Whether some neighbours in a list satisfy a test. -/
def anyNeighbours {α : Type} (test : α → α → Bool) : List α → Bool
  | a :: b :: rest => test a b || anyNeighbours test (b :: rest)
  | _ => false

/-- Whether the text ends, semicolons aside, with a word that cannot end a statement. -/
def endsDangling (code : List Token) : Bool :=
  match code.reverse.dropWhile (· == .semicolon) with
  | [] => false
  | [last] => last.isAnyKeyword danglingKeywords
  | last :: before :: _ =>
    last.isAnyKeyword danglingKeywords ||
      (last.isKeyword "BY" && before.isAnyKeyword ["GROUP", "ORDER"])

/-- The faults in the order of the clauses. -/
def structureFaults (code : List Token) : List Fault :=
  let starts (test : Token → Bool) := code.head?.any test
  onlyIf (!starts (Token.isAnyKeyword leadingKeywords)) .badStart
    ++ onlyIf (starts (Token.isKeyword "SELECT") && !code.any (Token.isKeyword "FROM")) .noFrom
    ++ onlyIf (endsDangling code) .danglingKeyword

/-- Whether a UNION is followed by a SELECT, perhaps with ALL between them. -/
def hasUnionSelect : List Token → Bool
  | a :: b :: rest =>
    (a.isKeyword "UNION" &&
      (b.isKeyword "SELECT" ||
        (b.isKeyword "ALL" && rest.head?.any (Token.isKeyword "SELECT")))) ||
      hasUnionSelect (b :: rest)
  | _ => false

/-- The dangers, of all tokens and of those that are code. -/
def dangers (all code : List Token) : List Danger :=
  onlyIf (anyNeighbours (fun a b => a == .semicolon && b.isAnyKeyword stackedKeywords) code)
      .stackedStatement
    ++ onlyIf (hasUnionSelect code) .unionSelect
    ++ onlyIf (all.getLast? == some .lineComment) .trailingComment
    ++ onlyIf (all.any Token.isBlockComment) .blockComment

/-- Whether a parenthesis is closed that is not open, `depth` being open at the start. -/
def closesTooEarly (depth : Nat) : List Token → Bool
  | [] => false
  | .openParen :: rest => closesTooEarly (depth + 1) rest
  | .closeParen :: rest =>
    match depth with
    | 0 => true
    | depth + 1 => closesTooEarly depth rest
  | _ :: rest => closesTooEarly depth rest

def parenthesisFaults (code : List Token) : List Fault :=
  let opening := code.count .openParen
  let closing := code.count .closeParen
  onlyIf (opening != closing) (.unbalanced opening closing)
    ++ onlyIf (closesTooEarly 0 code) .closedTooEarly

def quoteFaults (code : List Token) : List Fault :=
  onlyIf (code.contains (.string false)) .openQuote
    ++ onlyIf (code.contains (.quotedName false)) .openDoubleQuote

/-- Whether a word starts with an ASCII digit without being a number. -/
def isNumberedName (word : String) : Bool :=
  match word.toList with
  | [] => false
  | c :: cs => c.isDigit && (c :: cs).any fun d => Text.isAlphabetic d || d == '_'

def nameFaults (code : List Token) : List Fault :=
  code.filterMap fun
    | .word w => if isNumberedName w then some (.numberedName w) else none
    | _ => none

/-- The faults of a text with these tokens. -/
def faults (all : List Token) : List Fault :=
  let code := all.filter fun t => !t.isComment
  structureFaults code
    ++ (dangers all code).map .dangerous
    ++ parenthesisFaults code
    ++ quoteFaults code
    ++ nameFaults code

/--
Whether a comma stands in a table list, outside parentheses, `depth` of which are open. The list
ends with a semicolon or a keyword outside parentheses.
-/
def listHasComma (depth : Nat) : List Token → Bool
  | [] => false
  | .openParen :: rest => listHasComma (depth + 1) rest
  | .closeParen :: rest => listHasComma (depth - 1) rest
  | t :: rest =>
    if depth = 0 then
      if t = .comma then true
      else if t = .semicolon || t.isAnyKeyword listEndKeywords then false
      else listHasComma depth rest
    else listHasComma depth rest

/-- Whether the table list of the first FROM has a comma. -/
def hasImplicitJoin (code : List Token) : Bool :=
  match code.dropWhile fun t => !t.isKeyword "FROM" with
  | [] => false
  | _ :: rest => listHasComma 0 rest

/-- The warnings for a text of the given length, without extra blanks, with these tokens of code. -/
def warnings (maxLength length : Nat) (code : List Token) : List Warning :=
  onlyIf (anyNeighbours (fun a b => a.isKeyword "SELECT" && b == .symbol '*') code) .selectStar
    ++ onlyIf (code.head?.any (Token.isAnyKeyword ["UPDATE", "DELETE"]) &&
        !code.any (Token.isKeyword "WHERE")) .changesAllRows
    ++ onlyIf (hasImplicitJoin code) .cartesianProduct
    ++ onlyIf (maxLength < length) (.veryLong length)

/-- The findings in a text. -/
structure Report where
  faults : List Fault
  warnings : List Warning
  deriving DecidableEq, Repr

namespace Report

def isValid (r : Report) : Bool := r.faults.isEmpty

/-- Check a text. A text of blanks is empty, and nothing else is said about it. -/
def of (maxLength : Nat) (sql : String) : Report :=
  let normal := Text.squeeze sql
  if normal.isEmpty then ⟨[.empty], []⟩
  else
    let all := tokens sql.toList
    let code := all.filter fun t => !t.isComment
    ⟨Sql.faults all, Sql.warnings maxLength normal.length code⟩

end Report

end RuleQuery.Sql
