/-
# A text is cut up whole

The lexer does not stop early. Its pieces make up the text, each is what its token says, and one
that lacks its closing quote or the end of its comment is the last one. So at most one quote is left
open in a text, and no more than one of the two faults of open quotes is reported.
-/

import RuleQuery.Proofs.Lexeme.Choice
import RuleQuery.Proofs.Report.Basic

namespace RuleQuery.Sql

open Lexeme

variable {cs : List Char} {l m : Lexeme}

/-- Two lexemes without their ends are one and the same. -/
theorem Lexeme.eq_of_isOpen (first : l ∈ all cs) (second : m ∈ all cs)
    (left : l.token.isOpen = true) (right : m.token.isOpen = true) : l = m := by
  have same := (getLast?_of_isOpen first left).symm.trans (getLast?_of_isOpen second right)
  exact Option.some.inj same

/-- At most one of the faults of open quotes is found. -/
theorem length_quoteFaults_le (cs : List Char) :
    (quoteFaults ((tokens cs).filter fun t => !t.isComment)).length ≤ 1 := by
  have both : ¬ (.string false ∈ tokens cs ∧ .quotedName false ∈ tokens cs) := by
    rintro ⟨string, name⟩
    obtain ⟨l, mem, left⟩ := List.mem_map.mp (List.mem_of_mem_filter string)
    obtain ⟨m, mem', right⟩ := List.mem_map.mp (List.mem_of_mem_filter name)
    have same := eq_of_isOpen mem mem' (by rw [left]; rfl) (by rw [right]; rfl)
    rw [same, right] at left
    cases left
  unfold quoteFaults onlyIf
  split <;> split <;> simp_all

/--
The repeated choice of parsers takes the whole text, as the lexemes of which it consists:
consecutive pieces, each of which is what its token says, the last one only being without its end.
In particular no more than one open quote is reported.
-/
theorem Lexeme.all_tiles (sql : String) (maxLength : Nat) :
    Parser.many Parser.lexeme sql.toList = some (all sql.toList, []) ∧
    textOf (all sql.toList) = sql.toList ∧
    (∀ before l behind, all sql.toList = before ++ l :: behind →
      Fits (textOf before) l (textOf behind) ∧ (l.token.isOpen = true → behind = [])) ∧
    ((Report.of maxLength sql).faults.filter Fault.isOpenQuote).length ≤ 1 := by
  refine ⟨Parser.many_lexeme _, textOf_all _, fun before l behind split => ?_, ?_⟩
  · exact ⟨fits_of_split split, eq_nil_of_isOpen split⟩
  · rcases Report.of_cases maxLength sql with ⟨_, report⟩ | report
    · simp [report, Fault.isOpenQuote]
    · rw [report, filter_isOpenQuote_faults]
      exact length_quoteFaults_le sql.toList

end RuleQuery.Sql
