/-
# Lexemes of SQL text

SQL text is cut into lexemes: a token together with the piece of the text that it stands for.
String literals, quoted names and comments are single tokens, so that nothing inside them is taken
for code. Every character belongs to some lexeme, since one that fits nothing else is a symbol of
its own; so cutting never stops early. Each lexeme takes at least one character, which is what makes
the recursion of `Lexeme.all` end.
-/

import RuleQuery.Text.Alphabet

namespace RuleQuery.Sql

/-- What a piece of SQL text is. -/
inductive Token
  | word (text : String)
  | string (terminated : Bool)
  | quotedName (terminated : Bool)
  | lineComment
  | blockComment (terminated : Bool)
  | openParen
  | closeParen
  | semicolon
  | comma
  | symbol (c : Char)
  | blank
  deriving DecidableEq, Repr

/-- A token and the text it stands for. -/
structure Lexeme where
  token : Token
  text : List Char
  deriving DecidableEq, Repr

/-- The blanks of SQL text. -/
def isSqlBlank (c : Char) : Bool :=
  c == ' ' || c == '\t' || c == '\r' || c == '\n'

/-- The characters of a word. -/
def isWordChar (c : Char) : Bool :=
  Text.isAlphanumeric c || c == '_'

/-- A carriage return or a line feed. -/
def isLineEnd (c : Char) : Bool :=
  c == '\r' || c == '\n'

/--
What follows an opening quote, up to and with the closing one: its text, whether the closing quote
is there, and the rest. A doubled quote does not close.
-/
def quotedRun (quote : Char) : List Char → List Char × Bool × List Char
  | [] => ([], false, [])
  | [c] => if c = quote then ([c], true, []) else ([c], false, [])
  | c :: d :: cs =>
    if c = quote then
      if d = quote then
        let (run, closed, rest) := quotedRun quote cs
        (c :: d :: run, closed, rest)
      else ([c], true, d :: cs)
    else
      let (run, closed, rest) := quotedRun quote (d :: cs)
      (c :: run, closed, rest)

/-- What follows the opening of a block comment, up to and with its end. -/
def blockRun : List Char → List Char × Bool × List Char
  | [] => ([], false, [])
  | '*' :: '/' :: cs => (['*', '/'], true, cs)
  | c :: cs =>
    let (run, closed, rest) := blockRun cs
    (c :: run, closed, rest)

/--
Whether two hyphens before this text start a comment. They do not if the first line end after them
is a carriage return without a line feed.
-/
def opensLineComment (cs : List Char) : Bool :=
  match cs.dropWhile fun c => !isLineEnd c with
  | '\r' :: '\n' :: _ => true
  | '\r' :: _ => false
  | _ => true

/-- The lexeme of a single character. -/
def symbolToken : Char → Token
  | '(' => .openParen
  | ')' => .closeParen
  | ';' => .semicolon
  | ',' => .comma
  | c => .symbol c

/-- The lexeme at the front of a text that starts with `c`, and the rest. -/
def Lexeme.next (c : Char) (cs : List Char) : Lexeme × List Char :=
  if isSqlBlank c then
    (⟨.blank, c :: cs.takeWhile isSqlBlank⟩, cs.dropWhile isSqlBlank)
  else if c = '\'' then
    let (run, closed, rest) := quotedRun '\'' cs
    (⟨.string closed, c :: run⟩, rest)
  else if c = '"' then
    let (run, closed, rest) := quotedRun '"' cs
    (⟨.quotedName closed, c :: run⟩, rest)
  else if isWordChar c then
    let text := c :: cs.takeWhile isWordChar
    (⟨.word (String.ofList text), text⟩, cs.dropWhile isWordChar)
  else
    match c, cs with
    | '-', '-' :: rest =>
      if opensLineComment rest then
        (⟨.lineComment, '-' :: '-' :: rest.takeWhile fun d => !isLineEnd d⟩,
          rest.dropWhile fun d => !isLineEnd d)
      else (⟨.symbol '-', ['-']⟩, cs)
    | '/', '*' :: rest =>
      let (run, closed, rest) := blockRun rest
      (⟨.blockComment closed, '/' :: '*' :: run⟩, rest)
    | _, _ => (⟨symbolToken c, [c]⟩, cs)

theorem quotedRun_append (quote : Char) (cs : List Char) :
    (quotedRun quote cs).1 ++ (quotedRun quote cs).2.2 = cs := by
  fun_induction quotedRun quote cs <;> simp_all

theorem blockRun_append (cs : List Char) : (blockRun cs).1 ++ (blockRun cs).2.2 = cs := by
  fun_induction blockRun cs <;> simp_all

/-- A lexeme and the rest are the whole text. -/
theorem Lexeme.next_append (c : Char) (cs : List Char) :
    (Lexeme.next c cs).1.text ++ (Lexeme.next c cs).2 = c :: cs := by
  have quoted := quotedRun_append
  have block := blockRun_append
  unfold Lexeme.next
  split
  · simp [List.takeWhile_append_dropWhile]
  · split
    · simp [quoted]
    · split
      · simp [quoted]
      · split
        · simp [List.takeWhile_append_dropWhile]
        · split
          · split <;> simp [List.takeWhile_append_dropWhile]
          · simp [block]
          · simp

/-- No lexeme is empty. -/
theorem Lexeme.next_text_ne_nil (c : Char) (cs : List Char) :
    (Lexeme.next c cs).1.text ≠ [] := by
  unfold Lexeme.next
  split
  · simp
  · split
    · simp
    · split
      · simp
      · split
        · simp
        · split
          · split <;> simp
          · simp
          · simp

theorem Lexeme.length_next_lt (c : Char) (cs : List Char) :
    (Lexeme.next c cs).2.length < (c :: cs).length := by
  have whole := congrArg List.length (Lexeme.next_append c cs)
  have positive := List.length_pos_iff.mpr (Lexeme.next_text_ne_nil c cs)
  simp only [List.length_append] at whole
  omega

/-- The lexemes of a text, in order. -/
def Lexeme.all : List Char → List Lexeme
  | [] => []
  | c :: cs => (Lexeme.next c cs).1 :: Lexeme.all (Lexeme.next c cs).2
termination_by cs => cs.length
decreasing_by exact Lexeme.length_next_lt c cs

/-- The tokens of a text, without the blanks. -/
def tokens (cs : List Char) : List Token :=
  (Lexeme.all cs).map Lexeme.token |>.filter (· ≠ .blank)

end RuleQuery.Sql
