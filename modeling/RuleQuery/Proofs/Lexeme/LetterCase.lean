/-
# The lexer and the case of letters

An ASCII letter is a character of a word in either case, and every other test of the lexer is about
characters that are no letters. So a text in upper case is cut up in the same places, and into the
same tokens with their words in upper case. Two texts that differ in the case of letters have one
and the same form in upper case, which is how they are compared.
-/

import Mathlib.Data.List.Forall2
import Mathlib.Data.List.TakeWhile
import RuleQuery.Proofs.Lexeme.Cutting
import RuleQuery.Proofs.Name

namespace RuleQuery

/-! ## Characters and texts -/

namespace Text

/-- Texts that differ in the case of ASCII letters at most. -/
def Recased (a b : String) : Prop :=
  List.Forall₂ (fun c d => d = c ∨ d = c.toUpper ∨ d = c.toLower) a.toList b.toList

theorem toNat_toUpper (c : Char) :
    c.toUpper.toNat = if 97 ≤ c.toNat ∧ c.toNat ≤ 122 then c.toNat - 32 else c.toNat := by
  split
  next lower => exact Name.toNat_toUpper_of_lower lower
  next other => rw [Name.toUpper_of_not_lower other]

theorem toNat_toLower (c : Char) :
    c.toLower.toNat = if 65 ≤ c.toNat ∧ c.toNat ≤ 90 then c.toNat + 32 else c.toNat := by
  have upper : ('A'.val ≤ c.val ∧ c.val ≤ 'Z'.val) ↔ 65 ≤ c.toNat ∧ c.toNat ≤ 90 := by
    simp [UInt32.le_iff_toNat_le]
  unfold Char.toLower
  split
  next range =>
    rw [if_pos (upper.mp range), Char.toNat, UInt32.toNat_add]
    have := upper.mp range
    show (c.toNat + 32) % 4294967296 = _
    omega
  next other => rw [if_neg fun range => other (upper.mpr range)]

theorem toUpper_eq_toUpper_iff {c d : Char} :
    c.toUpper = d.toUpper ↔ d = c ∨ d = c.toUpper ∨ d = c.toLower := by
  rw [← Char.toNat_inj, ← Char.toNat_inj, ← Char.toNat_inj, ← Char.toNat_inj, toNat_toUpper,
    toNat_toUpper, toNat_toLower]
  split <;> split <;> split <;> omega

theorem isAlpha_toUpper (c : Char) : c.toUpper.isAlpha = c.isAlpha := by
  rw [Bool.eq_iff_iff, Name.isAlpha_iff_toNat, Name.isAlpha_iff_toNat, toNat_toUpper]
  split <;> omega

/-- What is no letter is the same in upper case. -/
theorem toUpper_of_not_isAlpha {c : Char} (noLetter : c.isAlpha = false) : c.toUpper = c :=
  Name.toUpper_of_not_lower fun lower => by
    rw [Name.isAlpha_iff_toNat.mpr (.inr lower)] at noLetter
    cases noLetter

/-- They have the same form in upper case. -/
theorem recased_iff {a b : String} : Recased a b ↔ upperAscii a = upperAscii b := by
  have chars : upperAscii a = upperAscii b ↔
      a.toList.map Char.toUpper = b.toList.map Char.toUpper := by
    rw [upperAscii, upperAscii, ← String.toList_inj, String.toList_ofList, String.toList_ofList]
  rw [chars, ← List.forall₂_eq_eq_eq, List.forall₂_map_left_iff, List.forall₂_map_right_iff]
  simp only [toUpper_eq_toUpper_iff, Recased]

/-- A character that is no letter is not the upper-case form of another one. -/
theorem toUpper_eq_iff {c d : Char} (noLetter : d.isAlpha = false) : c.toUpper = d ↔ c = d := by
  constructor
  · rintro rfl
    rw [isAlpha_toUpper] at noLetter
    exact (toUpper_of_not_isAlpha noLetter).symm
  · rintro rfl
    exact toUpper_of_not_isAlpha noLetter

/-- A text whose upper-case form starts with a character that is no letter starts with it, too. -/
theorem exists_of_map_toUpper {cs rest : List Char} {d : Char} (noLetter : d.isAlpha = false)
    (raised : cs.map Char.toUpper = d :: rest) :
    ∃ tail, cs = d :: tail ∧ rest = tail.map Char.toUpper := by
  obtain ⟨c, tail, rfl, same, rfl⟩ := List.map_eq_cons_iff.mp raised
  rw [toUpper_eq_iff noLetter] at same
  exact ⟨tail, by rw [same], rfl⟩

/-- A test whose outcome does not depend on the case of a letter. -/
def CaseBlind (test : Char → Bool) : Prop := ∀ c : Char, test c.toUpper = test c

namespace CaseBlind

variable {test other : Char → Bool}

theorem of_lower
    (letters : ∀ c, 97 ≤ c.toNat ∧ c.toNat ≤ 122 → test c.toUpper = test c) : CaseBlind test := by
  intro c
  by_cases lower : 97 ≤ c.toNat ∧ c.toNat ≤ 122
  · exact letters c lower
  · rw [Name.toUpper_of_not_lower lower]

theorem beq {d : Char} (noLetter : d.isAlpha = false) : CaseBlind (· == d) := fun c => by
  rw [Bool.eq_iff_iff, beq_iff_eq, beq_iff_eq, toUpper_eq_iff noLetter]

theorem or (first : CaseBlind test) (second : CaseBlind other) :
    CaseBlind fun c => test c || other c := fun c =>
  congrArg₂ (· || ·) (first c) (second c)

theorem not (blind : CaseBlind test) : CaseBlind fun c => !test c := fun c =>
  congrArg (! ·) (blind c)

theorem isAlphabetic : CaseBlind isAlphabetic := by
  refine of_lower fun c lower => ?_
  have raised := Name.toNat_toUpper_of_lower lower
  rw [isAlphabetic_of_lt (by omega), isAlphabetic_of_lt (by omega), isAlpha_toUpper]

theorem isDigit : CaseBlind Char.isDigit := by
  refine of_lower fun c lower => ?_
  have digit (d : Char) : d.isDigit = true ↔ 48 ≤ d.toNat ∧ d.toNat ≤ 57 := Char.isDigit_iff_toNat
  rw [Bool.eq_iff_iff, digit, digit, Name.toNat_toUpper_of_lower lower]
  omega

theorem isNumeric : CaseBlind isNumeric := by
  refine of_lower fun c lower => ?_
  have raised := Name.toNat_toUpper_of_lower lower
  rw [Text.isNumeric, Text.isNumeric, if_pos (by omega), if_pos (by omega), isDigit]

theorem isBlank : CaseBlind isBlank := by
  refine of_lower fun c lower => ?_
  have raised := Name.toNat_toUpper_of_lower lower
  grind [Text.isBlank]

/-- A run in upper case goes as far as the run itself. -/
theorem takeWhile (blind : CaseBlind test) (cs : List Char) :
    (cs.map Char.toUpper).takeWhile test = (cs.takeWhile test).map Char.toUpper := by
  rw [List.takeWhile_map, Function.comp_def, funext blind]

theorem dropWhile (blind : CaseBlind test) (cs : List Char) :
    (cs.map Char.toUpper).dropWhile test = (cs.dropWhile test).map Char.toUpper := by
  rw [List.dropWhile_map, Function.comp_def, funext blind]

end CaseBlind

end Text

namespace Sql

open Text (CaseBlind)

theorem caseBlind_isSqlBlank : CaseBlind isSqlBlank :=
  (((CaseBlind.beq (by decide)).or (.beq (by decide))).or (.beq (by decide))).or (.beq (by decide))

theorem caseBlind_isLineEnd : CaseBlind isLineEnd :=
  (CaseBlind.beq (by decide)).or (.beq (by decide))

theorem caseBlind_isWordChar : CaseBlind isWordChar :=
  (CaseBlind.isAlphabetic.or .isNumeric).or (.beq (by decide))

/-! ## Tokens -/

/-- A token with its word in upper case. -/
def Token.upper : Token → Token
  | .word w => .word (Text.upperAscii w)
  | t => t

/-- A lexeme in upper case. -/
def Lexeme.upper (l : Lexeme) : Lexeme := ⟨l.token.upper, l.text.map Char.toUpper⟩

variable {c quote : Char} {cs : List Char}

/-- A quote is closed by the same character in either case. -/
theorem quotedRun_toUpper (noLetter : quote.isAlpha = false) (cs : List Char) :
    quotedRun quote (cs.map Char.toUpper) = ((quotedRun quote cs).1.map Char.toUpper,
      (quotedRun quote cs).2.1, (quotedRun quote cs).2.2.map Char.toUpper) := by
  have same (c : Char) : c.toUpper = quote ↔ c = quote := Text.toUpper_eq_iff noLetter
  fun_induction quotedRun quote cs <;> simp_all [quotedRun]

theorem blockRun_toUpper (cs : List Char) :
    blockRun (cs.map Char.toUpper) = ((blockRun cs).1.map Char.toUpper, (blockRun cs).2.1,
      (blockRun cs).2.2.map Char.toUpper) := by
  fun_induction blockRun cs with
  | case1 => rfl
  | case2 cs => rfl
  | case3 c cs other run closed rest inner ih =>
      rw [List.map_cons, blockRun, ih, inner]
      · rfl
      · intro ds star slash
        obtain ⟨tail, rfl, _⟩ := Text.exists_of_map_toUpper (by decide) slash
        exact other tail ((Text.toUpper_eq_iff (by decide)).mp star) rfl

theorem opensLineComment_toUpper (cs : List Char) :
    opensLineComment (cs.map Char.toUpper) = opensLineComment cs := by
  have raised := caseBlind_isLineEnd.not.dropWhile cs
  cases stop : cs.dropWhile fun c => !isLineEnd c with
  | nil =>
      rw [stop] at raised
      rw [opensLineComment_of_end stop, opensLineComment_of_end raised]
  | cons d ds =>
      rw [stop] at raised
      have first : (d.toUpper != '\r') = (d != '\r') := CaseBlind.not (.beq (by decide)) d
      have second : ((ds.map Char.toUpper).head? == some '\n') = (ds.head? == some '\n') := by
        cases ds with
        | nil => rfl
        | cons e ds => exact CaseBlind.beq (d := '\n') (by decide) e
      rw [opensLineComment_of_stop stop, opensLineComment_of_stop raised, first, second]

namespace Lexeme

theorem IsSymbol.upper (symbol : IsSymbol c cs) : IsSymbol c (cs.map Char.toUpper) := by
  refine { symbol with noLineComment := ?_, noBlockComment := ?_ }
  · intro rest hyphen raised
    obtain ⟨tail, rfl, rfl⟩ := Text.exists_of_map_toUpper (by decide) raised
    rw [opensLineComment_toUpper]
    exact symbol.noLineComment tail hyphen rfl
  · intro rest slash raised
    obtain ⟨tail, rfl, _⟩ := Text.exists_of_map_toUpper (by decide) raised
    exact symbol.noBlockComment tail slash rfl

/-- A symbol is no letter. -/
theorem IsSymbol.toUpper_eq (symbol : IsSymbol c cs) : c.toUpper = c := by
  refine Text.toUpper_of_not_isAlpha (Bool.eq_false_iff.mpr fun letter => ?_)
  have range := Name.isAlpha_iff_toNat.mp letter
  have alphabetic := Text.isAlphabetic_of_lt (c := c) (by omega)
  have notWord := symbol.notWord
  simp [isWordChar, Text.isAlphanumeric, alphabetic, letter] at notWord

/-- The lexeme in front of a text in upper case is the one in front of the text, in upper case. -/
theorem next_toUpper (c : Char) (cs : List Char) : next c.toUpper (cs.map Char.toUpper) =
    ((next c cs).1.upper, (next c cs).2.map Char.toUpper) := by
  rcases start_cases c cs with
    blank | rfl | rfl | word | ⟨tail, rfl, rfl, opens⟩ | ⟨tail, rfl, rfl⟩ | symbol
  · rw [next_blank blank, next_blank ((caseBlind_isSqlBlank c).trans blank),
      caseBlind_isSqlBlank.takeWhile, caseBlind_isSqlBlank.dropWhile]
    rfl
  · show next '\'' (cs.map Char.toUpper) = _
    rw [next_string, next_string, quotedRun_toUpper (by decide)]
    rfl
  · show next '"' (cs.map Char.toUpper) = _
    rw [next_quotedName, next_quotedName, quotedRun_toUpper (by decide)]
    rfl
  · rw [next_word word, next_word ((caseBlind_isWordChar c).trans word),
      caseBlind_isWordChar.takeWhile, caseBlind_isWordChar.dropWhile]
    simp [upper, Token.upper, Text.upperAscii]
  · have opens' := (opensLineComment_toUpper tail).trans opens
    show next '-' ('-' :: tail.map Char.toUpper) = _
    rw [next_lineComment opens, next_lineComment opens', caseBlind_isLineEnd.not.takeWhile,
      caseBlind_isLineEnd.not.dropWhile]
    rfl
  · show next '/' ('*' :: tail.map Char.toUpper) = _
    rw [next_blockComment, next_blockComment, blockRun_toUpper]
    rfl
  · have kept : (symbolToken c).upper = symbolToken c := by
      unfold symbolToken
      split <;> rfl
    rw [symbol.toUpper_eq, symbol.upper.next, symbol.next, upper, kept, List.map_singleton,
      symbol.toUpper_eq]

/-- A text in upper case is cut up in the same places. -/
theorem all_toUpper (cs : List Char) :
    all (cs.map Char.toUpper) = (all cs).map Lexeme.upper := by
  induction cs using all.induct with
  | case1 => simp [all]
  | case2 c cs ih =>
      rw [List.map_cons, all, next_toUpper, all, List.map_cons, ih]

end Lexeme

theorem tokens_toUpper (cs : List Char) :
    tokens (cs.map Char.toUpper) = (tokens cs).map Token.upper := by
  have blank (t : Token) : (t.upper ≠ .blank) = (t ≠ .blank) := by
    cases t <;> simp [Token.upper]
  have lexemes : ((Lexeme.all cs).map Lexeme.upper).map Lexeme.token =
      ((Lexeme.all cs).map Lexeme.token).map Token.upper := by
    simp [List.map_map, Function.comp_def, Lexeme.upper]
  rw [tokens, Lexeme.all_toUpper, lexemes, List.filter_map, tokens]
  simp only [Function.comp_def, blank]

end Sql

end RuleQuery
