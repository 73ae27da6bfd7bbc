/-
# Texts in quotes

A text is quoted by doubling every quote in it and putting one at each end, and it comes back when
the quotes at the ends are taken off and every two quotes inside are read as one. Whatever the text,
and even if it consists of quotes or ends in some, the lexer finds the closing quote where it was
put: the string is one lexeme, and what follows is cut up as if it stood alone. The only thing that
may not follow is one more quote, which would be read as the second half of a doubled one.
-/

import RuleQuery.Proofs.Lexeme.Pieces

namespace RuleQuery

namespace Literal

/-- Read two quotes in a row as one, from left to right. -/
def undoubleQuotes : List Char → List Char
  | [] => []
  | [c] => [c]
  | c :: d :: cs =>
    if c = '\'' ∧ d = '\'' then '\'' :: undoubleQuotes cs else c :: undoubleQuotes (d :: cs)

/-- A text without the quotes at its two ends, if it has both. -/
def withoutEnds : List Char → List Char
  | [] => []
  | c :: cs => if c = '\'' ∧ cs.getLast? = some '\'' then cs.dropLast else c :: cs

/-- Take the quotes off: those at the ends, and one of every two inside. -/
def unquoted (cs : List Char) : List Char := undoubleQuotes (withoutEnds cs)

variable {c : Char} {cs : List Char}

theorem undoubleQuotes_other (other : c ≠ '\'') :
    undoubleQuotes (c :: cs) = c :: undoubleQuotes cs := by
  cases cs with
  | nil => rfl
  | cons d cs => exact if_neg fun both => other both.1

/-- Doubling the quotes is undone. -/
@[simp] theorem undoubleQuotes_doubleQuotes (cs : List Char) :
    undoubleQuotes (doubleQuotes cs) = cs := by
  induction cs with
  | nil => rfl
  | cons c cs ih =>
      by_cases quote : c = '\''
      · subst quote
        have doubled : doubleQuotes ('\'' :: cs) = '\'' :: '\'' :: doubleQuotes cs := rfl
        rw [doubled, undoubleQuotes, if_pos ⟨rfl, rfl⟩, ih]
      · have kept : doubleQuotes (c :: cs) = c :: doubleQuotes cs := by
          simp [doubleQuotes, quote]
        rw [kept, undoubleQuotes_other quote, ih]

/-- Quoting a text is undone. -/
@[simp] theorem unquoted_quoted (cs : List Char) : unquoted (quoted cs).toList = cs := by
  rw [quoted, String.toList_ofList, unquoted, List.cons_append, withoutEnds,
    if_pos ⟨rfl, List.getLast?_concat⟩, List.dropLast_concat, undoubleQuotes_doubleQuotes]

theorem undoubleQuotes_of_not_mem (none : '\'' ∉ cs) : undoubleQuotes cs = cs := by
  induction cs with
  | nil => rfl
  | cons c cs ih =>
      have other : c ≠ '\'' := by
        rintro rfl
        exact none List.mem_cons_self
      rw [undoubleQuotes_other other, ih fun mem => none (List.mem_cons_of_mem c mem)]

/-- A text without quotes has none to take off. -/
theorem unquoted_of_not_mem (none : '\'' ∉ cs) : unquoted cs = cs := by
  have ends : withoutEnds cs = cs := by
    cases cs with
    | nil => rfl
    | cons c cs =>
        refine if_neg fun quotes => none ?_
        rw [quotes.1]
        exact List.mem_cons_self
  rw [unquoted, ends, undoubleQuotes_of_not_mem none]

end Literal

namespace Sql

open Literal (quoted)

/-- A quoted text is one lexeme in front of anything but a quote. -/
theorem Lexeme.all_quoted_append (cs : List Char) {b : List Char} (apart : b.head? ≠ some '\'') :
    all ((quoted cs).toList ++ b) = ⟨.string true, (quoted cs).toList⟩ :: all b := by
  have chars : (quoted cs).toList ++ b = '\'' :: (Literal.doubleQuotes cs ++ '\'' :: b) := by
    simp [quoted]
  rw [chars, all, next_string, quotedRun_doubleQuotes cs apart]
  simp [quoted]

/-- It is not if a quote follows: no lexeme with a closing quote ends in front of another quote. -/
theorem Lexeme.head?_ne_of_all_quoted_append {cs b : List Char}
    (cut : all ((quoted cs).toList ++ b) = ⟨.string true, (quoted cs).toList⟩ :: all b) :
    b.head? ≠ some '\'' := by
  have split : all ((quoted cs).toList ++ b) =
      [] ++ ⟨.string true, (quoted cs).toList⟩ :: all b := cut
  have fits := fits_of_split split
  have behind := (fits.string rfl).2
  rwa [textOf_all] at behind

end Sql

open Sql in
/--
The SQL text of a string is one string token, closed, and what follows it is cut up on its own,
unless what follows starts with a quote. Taking the quotes off gives the string back, so that two
strings have different SQL texts.
-/
theorem Literal.all_sql_string_append (s : String) (b : List Char) :
    (Lexeme.all ((Literal.string s).sql.toList ++ b) =
        ⟨.string true, (Literal.string s).sql.toList⟩ :: Lexeme.all b ↔ b.head? ≠ some '\'') ∧
    (b.head? ≠ some '\'' →
      tokens ((Literal.string s).sql.toList ++ b) = .string true :: tokens b) ∧
    unquoted (Literal.string s).sql.toList = s.toList ∧
    ∀ r : String, (Literal.string r).sql = (Literal.string s).sql → r = s := by
  have whole (t : String) : unquoted (Literal.string t).sql.toList = t.toList :=
    unquoted_quoted t.toList
  refine ⟨⟨Lexeme.head?_ne_of_all_quoted_append, Lexeme.all_quoted_append s.toList⟩, ?_,
    whole s, ?_⟩
  · intro apart
    have cut := Lexeme.all_quoted_append s.toList apart
    have sql : (Literal.string s).sql = quoted s.toList := rfl
    rw [tokens, sql, cut]
    rfl
  · intro r same
    rw [← String.toList_inj, ← whole r, ← whole s, same]

open Sql in
/-- A string of quotes is closed in front of two hyphens, which are left outside of it. -/
theorem Literal.all_sql_string_append_quotes :
    (Literal.string "''").sql = "''''''" ∧ ("-- 1".toList).head? ≠ some '\'' ∧
      tokens ("''''''-- 1".toList) = .string true :: tokens "-- 1".toList := by
  have apart : ("-- 1".toList).head? ≠ some '\'' := by decide
  exact ⟨rfl, apart, (Literal.all_sql_string_append "''" "-- 1".toList).2.1 apart⟩

end RuleQuery
