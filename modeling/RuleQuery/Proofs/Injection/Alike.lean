/-
# Texts that are cut alike

Two texts are alike when they are the same but for the contents of their string literals and the
choice of their blanks. `Alike` builds such a pair from the front: a blank on both sides, a whole
string literal on both sides with any two contents, or one and the same character of code, which
may be neither a quote nor the start of a comment. The result is that texts that are alike have the
same tokens, so that nothing in a string literal can be seen from outside.

The induction follows the construction of the pair, one character of code at a time, while the
lexer takes a word at once. So the statement that is carried along also says what becomes of a word
that runs up to the current place: both texts continue it by the same characters, and the tokens
after it are the same.
-/

import RuleQuery.Literal
import RuleQuery.Sql.Lexeme

namespace RuleQuery.Sql

open Literal (doubleQuotes)

/-- A character and the text after it open a comment. -/
def OpensComment (c : Char) (rest : List Char) : Prop :=
  (c = '-' ∧ rest.head? = some '-') ∨ (c = '/' ∧ rest.head? = some '*')

/-- Two texts that differ in the contents of string literals and in the kinds of blanks at most. -/
inductive Alike : List Char → List Char → Prop
  | nil : Alike [] []
  | blank {c d : Char} {a b : List Char} (left : isSqlBlank c = true) (right : isSqlBlank d = true)
      (rest : Alike a b) : Alike (c :: a) (d :: b)
  | code {c : Char} {a b : List Char} (unquoted : c ≠ '\'' ∧ c ≠ '"')
      (left : ¬ OpensComment c a) (right : ¬ OpensComment c b) (rest : Alike a b) :
      Alike (c :: a) (c :: b)
  | string (s t : List Char) {a b : List Char} (left : a.head? ≠ some '\'')
      (right : b.head? ≠ some '\'') (rest : Alike a b) :
      Alike ('\'' :: doubleQuotes s ++ '\'' :: a) ('\'' :: doubleQuotes t ++ '\'' :: b)

/-- The tokens of a text are that of the first lexeme, unless it is blank, and those of the rest. -/
theorem tokens_cons (c : Char) (cs : List Char) :
    tokens (c :: cs) =
      [(Lexeme.next c cs).1.token].filter (· ≠ .blank) ++ tokens (Lexeme.next c cs).2 := by
  rw [tokens, Lexeme.all, List.map_cons, ← List.singleton_append, List.filter_append]
  rfl

/-- A blank in front of a text does not show in the tokens, whatever follows. -/
theorem tokens_blank {c : Char} (blank : isSqlBlank c = true) (cs : List Char) :
    tokens (c :: cs) = tokens cs := by
  have skip (c : Char) (cs : List Char) (blank : isSqlBlank c = true) :
      tokens (c :: cs) = tokens (cs.dropWhile isSqlBlank) := by
    rw [tokens_cons]
    unfold Lexeme.next
    rw [if_pos blank]
    rfl
  rw [skip c cs blank]
  cases cs with
  | nil => rfl
  | cons d ds =>
      by_cases next : isSqlBlank d = true
      · rw [skip d ds next, List.dropWhile_cons_of_pos next]
      · rw [List.dropWhile_cons_of_neg next]

/-- No blank is part of a word. -/
theorem isWordChar_of_isSqlBlank {c : Char} (blank : isSqlBlank c = true) :
    isWordChar c = false := by
  simp only [isSqlBlank, Bool.or_eq_true, beq_iff_eq] at blank
  rcases blank with ((rfl | rfl) | rfl) | rfl <;> decide

/-- A word is one token, however long it is. -/
theorem tokens_word {c : Char} (word : isWordChar c = true) (unquoted : c ≠ '\'' ∧ c ≠ '"')
    (cs : List Char) :
    tokens (c :: cs) =
      .word (String.ofList (c :: cs.takeWhile isWordChar)) ::
        tokens (cs.dropWhile isWordChar) := by
  have notBlank : ¬ isSqlBlank c = true := by
    intro blank
    rw [isWordChar_of_isSqlBlank blank] at word
    cases word
  rw [tokens_cons]
  unfold Lexeme.next
  rw [if_neg notBlank, if_neg unquoted.1, if_neg unquoted.2, if_pos word]
  rfl

/-- A character that neither belongs to a word nor opens a comment is a token of its own. -/
theorem tokens_symbol {c : Char} {cs : List Char} (notBlank : ¬ isSqlBlank c = true)
    (notWord : ¬ isWordChar c = true) (unquoted : c ≠ '\'' ∧ c ≠ '"')
    (noComment : ¬ OpensComment c cs) :
    tokens (c :: cs) = symbolToken c :: tokens cs := by
  have single : Lexeme.next c cs = (⟨symbolToken c, [c]⟩, cs) := by
    unfold Lexeme.next
    rw [if_neg notBlank, if_neg unquoted.1, if_neg unquoted.2, if_neg notWord]
    split
    · exact absurd (.inl ⟨rfl, rfl⟩) noComment
    · exact absurd (.inr ⟨rfl, rfl⟩) noComment
    · rfl
  have shown : symbolToken c ≠ .blank := by
    unfold symbolToken
    split <;> simp
  rw [tokens_cons, single]
  simp [shown]

/-- A doubled quote does not end a string literal, so the lexer takes the whole of the contents. -/
theorem quotedRun_doubleQuotes (s : List Char) {rest : List Char}
    (apart : rest.head? ≠ some '\'') :
    quotedRun '\'' (doubleQuotes s ++ '\'' :: rest) = (doubleQuotes s ++ ['\''], true, rest) := by
  induction s with
  | nil =>
      cases rest with
      | nil => rfl
      | cons d ds =>
          have other : d ≠ '\'' := by simpa using apart
          simp [doubleQuotes, quotedRun, other]
  | cons c s ih =>
      by_cases quote : c = '\''
      · subst quote
        have doubled : doubleQuotes ('\'' :: s) = '\'' :: '\'' :: doubleQuotes s := rfl
        rw [doubled, List.cons_append, List.cons_append, quotedRun, if_pos rfl, if_pos rfl, ih]
        rfl
      · have kept : doubleQuotes (c :: s) = c :: doubleQuotes s := by
          simp [doubleQuotes, quote]
        obtain ⟨d, ds, split⟩ : ∃ d ds, doubleQuotes s ++ '\'' :: rest = d :: ds :=
          List.exists_cons_of_ne_nil (by simp)
        rw [kept, List.cons_append, split, quotedRun, if_neg quote, ← split, ih]
        rfl

/-- A string literal is one token, whatever it contains. -/
theorem tokens_string (s : List Char) {rest : List Char} (apart : rest.head? ≠ some '\'') :
    tokens ('\'' :: doubleQuotes s ++ '\'' :: rest) = .string true :: tokens rest := by
  have notBlank : ¬ isSqlBlank '\'' = true := by decide
  rw [List.cons_append, tokens_cons]
  unfold Lexeme.next
  rw [if_neg notBlank, if_pos rfl, quotedRun_doubleQuotes s apart]
  rfl

/-- What the lexer sees is the same, before a token as well as inside a word. -/
structure SeenAlike (a b : List Char) : Prop where
  tokens : tokens a = tokens b
  word : a.takeWhile isWordChar = b.takeWhile isWordChar
  afterWord : Sql.tokens (a.dropWhile isWordChar) = Sql.tokens (b.dropWhile isWordChar)

/-- Two texts with the same tokens that do not start with a word are seen alike. -/
theorem SeenAlike.of_not_word {c d : Char} {a b : List Char}
    (same : Sql.tokens (c :: a) = Sql.tokens (d :: b)) (left : ¬ isWordChar c = true)
    (right : ¬ isWordChar d = true) : SeenAlike (c :: a) (d :: b) where
  tokens := same
  word := by rw [List.takeWhile_cons_of_neg left, List.takeWhile_cons_of_neg right]
  afterWord := by rwa [List.dropWhile_cons_of_neg left, List.dropWhile_cons_of_neg right]

theorem Alike.seen {a b : List Char} (alike : Alike a b) : SeenAlike a b := by
  induction alike with
  | nil => exact ⟨rfl, rfl, rfl⟩
  | blank left right _ ih =>
      apply SeenAlike.of_not_word
      · rw [tokens_blank left, tokens_blank right, ih.tokens]
      · simp [isWordChar_of_isSqlBlank left]
      · simp [isWordChar_of_isSqlBlank right]
  | @code c a b unquoted left right _ ih =>
      by_cases word : isWordChar c = true
      · constructor
        · rw [tokens_word word unquoted, tokens_word word unquoted, ih.word, ih.afterWord]
        · rw [List.takeWhile_cons_of_pos word, List.takeWhile_cons_of_pos word, ih.word]
        · rw [List.dropWhile_cons_of_pos word, List.dropWhile_cons_of_pos word, ih.afterWord]
      · apply SeenAlike.of_not_word _ word word
        by_cases blank : isSqlBlank c = true
        · rw [tokens_blank blank, tokens_blank blank, ih.tokens]
        · rw [tokens_symbol blank word unquoted left, tokens_symbol blank word unquoted right,
            ih.tokens]
  | string s t left right _ ih =>
      have notWord : ¬ isWordChar '\'' = true := by decide
      apply SeenAlike.of_not_word _ notWord notWord
      exact (tokens_string s left).trans ((congrArg _ ih.tokens).trans (tokens_string t right).symm)

/-- Texts that are alike have the same tokens. -/
theorem Alike.tokens_eq {a b : List Char} (alike : Alike a b) : tokens a = tokens b :=
  alike.seen.tokens

end RuleQuery.Sql
