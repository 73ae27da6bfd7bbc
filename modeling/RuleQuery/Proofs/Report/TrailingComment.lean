/-
# Two hyphens that swallow the rest of a statement

Whoever can append to a statement can try to cut off what follows by two hyphens. The check reports
a comment at the end of a text, so the question is whether the text behind the hyphens can be chosen
such that the comment is not seen. The main statement says exactly when: behind a text that ends in
code, and for a text without line feed, the comment is reported unless there is a carriage return,
and then only if the text has another comment at its own end.

So a carriage return hides the hyphens: it is a line end without being the end of a comment, and the
lexer takes the hyphens in front of it for two symbols. `hiddenComment_unreported` is a statement of
which nothing at all is reported.
-/

import Mathlib.Data.List.TakeWhile
import RuleQuery.Proofs.Lexeme.Spacing
import RuleQuery.Proofs.Report.Basic

namespace RuleQuery.Sql

namespace Lexeme

/-- A single hyphen. -/
def hyphen : Lexeme := ⟨.symbol '-', ['-']⟩

/-- Of the tokens of code, only another hyphen is continued by a hyphen. -/
theorem endsBefore_hyphen {t : Token} (closed : t.isOpen = false) (code : t ≠ .lineComment)
    (other : t ≠ .symbol '-') : t.endsBefore '-' = true := by
  refine Token.endsBefore_of_code closed code (by decide) (by decide) (fun _ => by decide) ?_
  rintro c rfl
  exact ⟨fun same => absurd (congrArg Token.symbol same) other, fun _ => by decide⟩

/-- Only a hyphen has the token of a hyphen. -/
theorem of_next_hyphen {c : Char} {cs rest : List Char} {l : Lexeme} (cut : next c cs = (l, rest))
    (symbol : l.token = .symbol '-') : l = hyphen ∧ c = '-' ∧ cs = rest := by
  cases next_eq_iff.mp cut with
  | symbol _ left =>
      have single : c = '-' := by
        simp only [symbolToken] at symbol
        split at symbol <;> simp_all
      subst single
      exact ⟨rfl, rfl, left⟩
  | _ => cases symbol

/--
Hyphens behind code are cut up on their own, unless the code ends in a hyphen itself, which they are
cut up with then.
-/
theorem all_append_hyphen {a : List Char} (code : EndsInCode a) (r : List Char) :
    all (a ++ '-' :: r) = all a ++ all ('-' :: r) ∨
      ∃ ls, all a = ls ++ [hyphen] ∧ all (a ++ '-' :: r) = ls ++ all ('-' :: '-' :: r) := by
  obtain ⟨closed, uncommented⟩ := code
  by_cases continued : ∃ l, (all a).getLast? = some l ∧ l.token = .symbol '-'
  · obtain ⟨l, last, symbol⟩ := continued
    obtain ⟨ls, c, cs, cut, whole, behind⟩ := exists_last (d := '-') last (by decide)
    obtain ⟨rfl, rfl, rfl⟩ := of_next_hyphen cut symbol
    exact .inr ⟨ls, whole, behind r⟩
  · refine .inl (all_append (fun l last => ?_) (by decide))
    exact endsBefore_hyphen (closed l (List.mem_of_getLast? last)) (uncommented l last)
      fun symbol => continued ⟨l, last, symbol⟩

/-! ## Behind the hyphens -/

/-- Without a line end, two hyphens and what follows them are one comment. -/
theorem all_comment {u : List Char} (noEnd : ∀ c ∈ u, isLineEnd c = false) :
    all ('-' :: '-' :: u) = [⟨.lineComment, '-' :: '-' :: u⟩] := by
  have shown : ∀ c ∈ u, (!isLineEnd c) = true := by simpa using noEnd
  have done : u.dropWhile (fun c => !isLineEnd c) = [] := List.dropWhile_eq_nil_iff.mpr shown
  have whole : u.takeWhile (fun c => !isLineEnd c) = u := List.takeWhile_eq_self_iff.mpr shown
  rw [all, next_lineComment (opensLineComment_of_end done), done, whole, all]

theorem opensLineComment_of_return {u : List Char} (ret : '\r' ∈ u) (noFeed : '\n' ∉ u) :
    opensLineComment u = false := by
  cases stop : u.dropWhile fun c => !isLineEnd c with
  | nil =>
      have none : isLineEnd '\r' = false := by
        simpa using List.dropWhile_eq_nil_iff.mp stop '\r' ret
      exact absurd none (by decide)
  | cons d ds =>
      have left : d :: ds ⊆ u := stop ▸ List.dropWhile_sublist _ |>.subset
      have lineEnd := List.head?_dropWhile_not (fun c => !isLineEnd c) u
      rw [stop] at lineEnd
      have noFeedLeft : '\n' ∉ d :: ds := fun mem => noFeed (left mem)
      have lone : d = '\r' := by
        rcases Bool.or_eq_true _ _ |>.mp (show isLineEnd d = true by simpa using lineEnd) with
          same | same
        · exact beq_iff_eq.mp same
        · simp [beq_iff_eq.mp same] at noFeedLeft
      rw [opensLineComment_of_stop stop, lone]
      cases ds with
      | nil => rfl
      | cons e ds =>
          have other : e ≠ '\n' := by
            rintro rfl
            simp at noFeedLeft
          simp [other]

/-- Before a carriage return, and without a line feed, a hyphen is a symbol. -/
theorem all_hyphen {u : List Char} (ret : '\r' ∈ u) (noFeed : '\n' ∉ u) :
    all ('-' :: u) = hyphen :: all u := by
  have symbol : IsSymbol '-' u := by
    refine ⟨by decide, by decide, by decide, ?_, ?_⟩
    · rintro rest _ rfl
      exact opensLineComment_of_return (by simpa using ret) (by simpa using noFeed)
    · intro rest slash
      exact absurd slash (by decide)
  rw [all, symbol.next]
  rfl

end Lexeme

/-- The comment is reported if it is the last token. -/
theorem trailingComment_mem_faults {ts : List Token} :
    .dangerous .trailingComment ∈ faults ts ↔ ts.getLast? = some .lineComment := by
  have noName : .dangerous .trailingComment ∉ nameFaults (ts.filter fun t => !t.isComment) := by
    intro mem
    obtain ⟨t, _, named⟩ := List.mem_filterMap.mp mem
    split at named
    · split at named <;> cases named
    · cases named
  simp [faults, structureFaults, dangers, parenthesisFaults, quoteFaults, noName]

open Lexeme in
/-- Hyphens behind code end in a comment unless a carriage return keeps them from it. -/
theorem getLast?_tokens_hyphens {a u : List Char} (code : EndsInCode a) (noFeed : '\n' ∉ u) :
    (tokens (a ++ '-' :: '-' :: u)).getLast? = some .lineComment ↔
      '\r' ∉ u ∨ (tokens u).getLast? = some .lineComment := by
  by_cases ret : '\r' ∈ u
  · have inner : all ('-' :: u) = hyphen :: all u := all_hyphen ret noFeed
    have middle : all ('-' :: '-' :: u) = hyphen :: all ('-' :: u) :=
      all_hyphen (by simp [ret]) (by simp [noFeed])
    have outer : all ('-' :: '-' :: '-' :: u) = hyphen :: all ('-' :: '-' :: u) :=
      all_hyphen (by simp [ret]) (by simp [noFeed])
    have whole : all (a ++ '-' :: '-' :: u) = all a ++ hyphen :: hyphen :: all u := by
      rcases all_append_hyphen code ('-' :: u) with apart | ⟨ls, before, behind⟩
      · rw [apart, middle, inner]
      · rw [behind, outer, middle, inner, before, List.append_assoc]
        rfl
    have shown : tokens (a ++ '-' :: '-' :: u) =
        (tokens a ++ [.symbol '-']) ++ .symbol '-' :: tokens u := by
      simp [tokens, whole, hyphen]
    rw [shown, List.getLast?_append, List.getLast?_cons]
    cases (tokens u).getLast? <;> simp [ret]
  · have noEnd : ∀ c ∈ u, isLineEnd c = false := by
      intro c mem
      have noReturn : c ≠ '\r' := fun same => ret (same ▸ mem)
      have noLineFeed : c ≠ '\n' := fun same => noFeed (same ▸ mem)
      simp [isLineEnd, noReturn, noLineFeed]
    have two := all_comment noEnd
    have three := all_comment (u := '-' :: u) (by simpa using ⟨by decide, noEnd⟩)
    obtain ⟨ls, text, whole⟩ : ∃ ls text,
        all (a ++ '-' :: '-' :: u) = ls ++ [⟨.lineComment, text⟩] := by
      rcases all_append_hyphen code ('-' :: u) with apart | ⟨ls, _, behind⟩
      · exact ⟨_, _, two ▸ apart⟩
      · exact ⟨ls, _, three ▸ behind⟩
    simp [tokens, whole, ret]

/--
A comment that two hyphens start at the end of code is reported, whatever follows them without a
line feed, exactly if what follows has no carriage return or ends in a comment of its own.
-/
theorem Report.trailingComment_mem_iff {a u : String} (code : Lexeme.EndsInCode a.toList)
    (noFeed : '\n' ∉ u.toList) (maxLength : Nat) :
    .dangerous .trailingComment ∈ (Report.of maxLength (a ++ "--" ++ u)).faults ↔
      '\r' ∉ u.toList ∨ (tokens u.toList).getLast? = some .lineComment := by
  have chars : (a ++ "--" ++ u).toList = a.toList ++ '-' :: '-' :: u.toList := by simp
  have hyphen : '-' ∈ (a ++ "--" ++ u).toList := by simp [chars]
  rw [of_shown hyphen (by decide), chars, trailingComment_mem_faults]
  exact getLast?_tokens_hyphens code noFeed

/-- A search for one user, behind which more may be put in. -/
def userById : String := "SELECT id FROM users WHERE id = 1"

/-- Quotes, semicolons and openings of block comments do not hide the comment. -/
theorem Report.trailingComment_mem_userById :
    Lexeme.EndsInCode userById.toList ∧ '\n' ∉ "-'; /* AND active = TRUE".toList ∧
      .dangerous .trailingComment ∈
        (Report.of 1000 (userById ++ "--" ++ "-'; /* AND active = TRUE")).faults := by
  have code : Lexeme.EndsInCode userById.toList := by decide +kernel
  have noFeed : '\n' ∉ "-'; /* AND active = TRUE".toList := by decide
  exact ⟨code, noFeed, (Report.trailingComment_mem_iff code noFeed 1000).mpr (.inl (by decide))⟩

/-- A carriage return behind the hyphens hides them: nothing at all is reported. -/
theorem Report.hiddenComment_unreported :
    Lexeme.EndsInCode userById.toList ∧ '\n' ∉ " AND active = TRUE\r".toList ∧
      .dangerous .trailingComment ∉
        (Report.of 1000 (userById ++ "--" ++ " AND active = TRUE\r")).faults ∧
      (Report.of 1000 (userById ++ "--" ++ " AND active = TRUE\r")).isValid = true := by
  decide +kernel

end RuleQuery.Sql
