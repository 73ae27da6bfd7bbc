/-
# The check and the case of letters

SQL does not tell `select` from `SELECT`, and neither does the check: a text is searched for
keywords in any case, and for nothing else that has a case. So whatever is reported of a text is
reported of it in upper case, too, in the same order, and the reports on two texts that differ in
the case of letters say the same. They can be told apart by one finding only, which quotes a name
that starts with a digit as it is written.
-/

import RuleQuery.Proofs.Lexeme.LetterCase
import RuleQuery.Proofs.Report.Basic

namespace RuleQuery

/-! ## Blanks -/

namespace Text

/-- The words of a text in upper case are its words in upper case. -/
theorem words_toUpper (cs : List Char) :
    words (cs.map Char.toUpper) = (words cs).map (List.map Char.toUpper) := by
  have blind := CaseBlind.isBlank
  induction cs with
  | nil => rfl
  | cons c cs ih =>
      rw [List.map_cons, words.eq_def, words.eq_def (c :: cs)]
      dsimp only
      rw [blind c]
      by_cases blank : isBlank c = true
      · rw [if_pos blank, if_pos blank, ih]
      · rw [if_neg blank, if_neg blank]
        cases cs with
        | nil => rfl
        | cons d ds =>
            simp only [List.map_cons] at ih ⊢
            rw [blind d, ih]
            split
            · rfl
            · cases words (d :: ds) <;> rfl

/-- The length of words put together depends on the lengths of the words only. -/
theorem length_intercalate_map {f : List Char → List Char} (keeps : ∀ w, (f w).length = w.length)
    (between : List Char) (ws : List (List Char)) :
    (between.intercalate (ws.map f)).length = (between.intercalate ws).length := by
  induction ws with
  | nil => rfl
  | cons w ws ih =>
      cases ws with
      | nil => simpa using keeps w
      | cons v ws =>
          rw [List.map_cons, List.map_cons, List.intercalate_cons_cons, List.intercalate_cons_cons,
            List.length_append, List.length_append, List.length_append, List.length_append, keeps w,
            ← List.map_cons, ih]

theorem toList_squeeze (s : String) : (squeeze s).toList = [' '].intercalate (words s.toList) := by
  rw [squeeze, String.toList_intercalate, List.map_map]
  simp [Function.comp_def]

/-- A text in upper case is as long, without extra blanks, as the text. -/
theorem length_squeeze_upperAscii (s : String) :
    (squeeze (upperAscii s)).length = (squeeze s).length := by
  rw [← String.length_toList, ← String.length_toList, toList_squeeze, toList_squeeze, upperAscii,
    String.toList_ofList, words_toUpper, length_intercalate_map fun w => List.length_map ..]

end Text

namespace Sql

/-! ## Tokens in upper case -/

namespace Token

variable {t u : Token}

@[simp] theorem isKeyword_upper (keyword : String) (t : Token) :
    t.upper.isKeyword keyword = t.isKeyword keyword := by
  cases t with
  | word w => simp [upper, isKeyword, Text.sameLetters, Name.upperAscii_upperAscii]
  | _ => rfl

@[simp] theorem isAnyKeyword_upper (keywords : List String) (t : Token) :
    t.upper.isAnyKeyword keywords = t.isAnyKeyword keywords := by
  simp [isAnyKeyword]

@[simp] theorem isComment_upper (t : Token) : t.upper.isComment = t.isComment := by
  cases t <;> rfl

@[simp] theorem isBlockComment_upper (t : Token) : t.upper.isBlockComment = t.isBlockComment := by
  cases t <;> rfl

/-- Only words have a case. -/
theorem upper_eq_iff (noWord : ∀ w, u ≠ .word w) : t.upper = u ↔ t = u := by
  cases t with
  | word w => exact iff_of_false (fun same => noWord _ same.symm) fun same => noWord _ same.symm
  | _ => rfl

theorem upper_ne (noWord : ∀ w, u ≠ .word w) (other : t ≠ u) : t.upper ≠ u := fun same =>
  other ((upper_eq_iff noWord).mp same)

theorem upper_beq (noWord : ∀ w, u ≠ .word w) : (t.upper == u) = (t == u) := by
  rw [Bool.eq_iff_iff, beq_iff_eq, beq_iff_eq, upper_eq_iff noWord]

end Token

variable {ts : List Token}

theorem isNumberedName_upperAscii (w : String) :
    isNumberedName (Text.upperAscii w) = isNumberedName w := by
  have blind : Text.CaseBlind fun c => Text.isAlphabetic c || c == '_' :=
    Text.CaseBlind.isAlphabetic.or (.beq (by decide))
  unfold isNumberedName
  rw [Text.upperAscii, String.toList_ofList]
  cases w.toList with
  | nil => rfl
  | cons c cs =>
      simp only [List.map_cons, Text.CaseBlind.isDigit c]
      rw [← List.map_cons, List.any_map, Function.comp_def, funext blind]

theorem hasUnionSelect_upper (ts : List Token) :
    hasUnionSelect (ts.map Token.upper) = hasUnionSelect ts := by
  induction ts with
  | nil => rfl
  | cons a ts ih =>
      cases ts with
      | nil => rfl
      | cons b rest =>
          rw [List.map_cons, List.map_cons, hasUnionSelect, hasUnionSelect, ← List.map_cons, ih]
          simp [List.head?_map, Option.any_map]

theorem anyNeighbours_upper (test : Token → Token → Bool)
    (same : ∀ a b, test a.upper b.upper = test a b) (ts : List Token) :
    anyNeighbours test (ts.map Token.upper) = anyNeighbours test ts := by
  induction ts with
  | nil => rfl
  | cons a ts ih =>
      cases ts with
      | nil => rfl
      | cons b rest =>
          rw [List.map_cons, List.map_cons, anyNeighbours, anyNeighbours, ← List.map_cons, ih, same]

theorem closesTooEarly_upper (depth : Nat) (ts : List Token) :
    closesTooEarly depth (ts.map Token.upper) = closesTooEarly depth ts := by
  induction ts generalizing depth with
  | nil => rfl
  | cons t rest ih =>
      by_cases opens : t = .openParen
      · subst opens
        exact ih (depth + 1)
      · by_cases closes : t = .closeParen
        · subst closes
          cases depth with
          | zero => rfl
          | succ depth => exact ih depth
        · rw [List.map_cons, closesTooEarly, closesTooEarly, ih]
          · exact opens
          · exact closes
          · exact Token.upper_ne nofun opens
          · exact Token.upper_ne nofun closes

theorem listHasComma_upper (depth : Nat) (ts : List Token) :
    listHasComma depth (ts.map Token.upper) = listHasComma depth ts := by
  induction ts generalizing depth with
  | nil => rfl
  | cons t rest ih =>
      by_cases opens : t = .openParen
      · subst opens
        exact ih (depth + 1)
      · by_cases closes : t = .closeParen
        · subst closes
          exact ih (depth - 1)
        · have comma : t.upper = .comma ↔ t = .comma := Token.upper_eq_iff nofun
          have semicolon : t.upper = .semicolon ↔ t = .semicolon := Token.upper_eq_iff nofun
          rw [List.map_cons, listHasComma, listHasComma, ih]
          · simp only [comma, semicolon, Token.isAnyKeyword_upper]
          · exact opens
          · exact closes
          · exact Token.upper_ne nofun opens
          · exact Token.upper_ne nofun closes

theorem hasImplicitJoin_upper (ts : List Token) :
    hasImplicitJoin (ts.map Token.upper) = hasImplicitJoin ts := by
  rw [hasImplicitJoin, hasImplicitJoin, List.dropWhile_map]
  simp only [Function.comp_def, Token.isKeyword_upper]
  cases ts.dropWhile fun t => !t.isKeyword "FROM" with
  | nil => rfl
  | cons t rest => exact listHasComma_upper 0 rest

theorem endsDangling_upper (ts : List Token) :
    endsDangling (ts.map Token.upper) = endsDangling ts := by
  have semicolon (t : Token) : (t.upper == .semicolon) = (t == .semicolon) := Token.upper_beq nofun
  rw [endsDangling, endsDangling, ← List.map_reverse, List.dropWhile_map]
  simp only [Function.comp_def, semicolon]
  generalize ts.reverse.dropWhile (fun t => t == .semicolon) = back
  match back with
  | [] => rfl
  | [last] => simp
  | last :: before :: _ => simp

/-! ## Findings -/

/-- A fault with the name that it quotes in upper case. -/
def Fault.upper : Fault → Fault
  | .numberedName w => .numberedName (Text.upperAscii w)
  | f => f

/-- A report on a text in upper case. -/
def Report.upper (r : Report) : Report := ⟨r.faults.map Fault.upper, r.warnings⟩

@[simp] theorem map_onlyIf {α β : Type} {condition : Bool} {finding : α} (g : α → β) :
    (onlyIf condition finding).map g = onlyIf condition (g finding) := by
  cases condition <;> rfl

theorem structureFaults_upper (ts : List Token) :
    structureFaults (ts.map Token.upper) = (structureFaults ts).map Fault.upper := by
  simp [structureFaults, endsDangling_upper, Fault.upper, List.head?_map, Option.any_map,
    List.any_map, Function.comp_def]

theorem dangers_upper (all code : List Token) :
    dangers (all.map Token.upper) (code.map Token.upper) = dangers all code := by
  have semicolon (t : Token) : (t.upper == .semicolon) = (t == .semicolon) := Token.upper_beq nofun
  have stacked := anyNeighbours_upper
    (fun a b => a == .semicolon && b.isAnyKeyword stackedKeywords)
    (fun a b => by rw [semicolon, Token.isAnyKeyword_upper]) code
  have trailing : (all.getLast?.map Token.upper == some .lineComment) =
      (all.getLast? == some .lineComment) := by
    cases all.getLast? with
    | none => rfl
    | some t => exact Token.upper_beq (u := .lineComment) nofun
  simp [dangers, stacked, trailing, hasUnionSelect_upper, List.any_map, Function.comp_def]

theorem count_upper {u : Token} (noWord : ∀ w, u ≠ .word w) (ts : List Token) :
    (ts.map Token.upper).count u = ts.count u := by
  rw [List.count_eq_countP, List.countP_map, List.count_eq_countP]
  exact List.countP_congr fun t _ => by simp [Token.upper_eq_iff noWord]

theorem parenthesisFaults_upper (ts : List Token) :
    parenthesisFaults (ts.map Token.upper) = (parenthesisFaults ts).map Fault.upper := by
  simp [parenthesisFaults, count_upper, closesTooEarly_upper, Fault.upper]

theorem contains_upper {u : Token} (noWord : ∀ w, u ≠ .word w) (ts : List Token) :
    (ts.map Token.upper).contains u = ts.contains u := by
  rw [Bool.eq_iff_iff, List.contains_iff_mem, List.contains_iff_mem, List.mem_map]
  simp [Token.upper_eq_iff noWord]

theorem quoteFaults_upper (ts : List Token) :
    quoteFaults (ts.map Token.upper) = (quoteFaults ts).map Fault.upper := by
  rw [quoteFaults, quoteFaults, contains_upper (u := .string false) (by simp),
    contains_upper (u := .quotedName false) (by simp), List.map_append, map_onlyIf, map_onlyIf]
  rfl

theorem nameFaults_upper (ts : List Token) :
    nameFaults (ts.map Token.upper) = (nameFaults ts).map Fault.upper := by
  rw [nameFaults, nameFaults, List.filterMap_map, List.map_filterMap]
  refine List.filterMap_congr fun t _ => ?_
  cases t with
  | word w =>
      simp only [Function.comp_apply, Token.upper, isNumberedName_upperAscii]
      split <;> rfl
  | _ => rfl

theorem filter_isComment_upper (ts : List Token) :
    (ts.map Token.upper).filter (fun t => !t.isComment) =
      (ts.filter fun t => !t.isComment).map Token.upper := by
  simp only [List.filter_map, Function.comp_def, Token.isComment_upper]

theorem faults_upper (ts : List Token) :
    faults (ts.map Token.upper) = (faults ts).map Fault.upper := by
  have dangerous (ds : List Danger) :
      (ds.map Fault.dangerous).map Fault.upper = ds.map Fault.dangerous := by
    rw [List.map_map]
    rfl
  simp only [faults, filter_isComment_upper, structureFaults_upper, dangers_upper,
    parenthesisFaults_upper, quoteFaults_upper, nameFaults_upper, List.map_append, dangerous]

theorem warnings_upper (maxLength length : Nat) (code : List Token) :
    warnings maxLength length (code.map Token.upper) = warnings maxLength length code := by
  have star (t : Token) : (t.upper == .symbol '*') = (t == .symbol '*') := Token.upper_beq nofun
  have selectStar := anyNeighbours_upper (fun a b => a.isKeyword "SELECT" && b == .symbol '*')
    (fun a b => by rw [Token.isKeyword_upper, star]) code
  simp [warnings, selectStar, hasImplicitJoin_upper, List.head?_map, Option.any_map, List.any_map,
    Function.comp_def]

/-- The report on a text in upper case is the report on the text, in upper case. -/
theorem Report.of_upperAscii (maxLength : Nat) (sql : String) :
    of maxLength (Text.upperAscii sql) = (of maxLength sql).upper := by
  have empty : (Text.squeeze (Text.upperAscii sql)).isEmpty = (Text.squeeze sql).isEmpty := by
    rw [Bool.eq_iff_iff, String.isEmpty_iff, String.isEmpty_iff, ← String.length_eq_zero_iff,
      ← String.length_eq_zero_iff, Text.length_squeeze_upperAscii]
  have chars : (Text.upperAscii sql).toList = sql.toList.map Char.toUpper := by
    rw [Text.upperAscii, String.toList_ofList]
  unfold of
  dsimp only
  rw [empty, chars, tokens_toUpper, faults_upper, filter_isComment_upper, warnings_upper,
    Text.length_squeeze_upperAscii]
  split <;> rfl

/-- Faults that differ in the case of a quoted name at most. -/
inductive Fault.Recased : Fault → Fault → Prop
  | same (f) : Fault.Recased f f
  | name {v w} (recased : Text.Recased v w) : Fault.Recased (.numberedName v) (.numberedName w)

theorem Fault.recased_of_upper {f g : Fault} (same : f.upper = g.upper) : Fault.Recased f g := by
  cases f <;> cases g <;> simp_all [upper, Fault.Recased.same]
  exact .name (Text.recased_iff.mpr ‹_›)

/--
Changing the case of letters in a text changes nothing in what is found: the text is as valid as
before, the warnings are the same, and so are the faults, one by one, but for the case of the names
that they quote.
-/
theorem Report.of_recased {a b : String} (recased : Text.Recased a b) (maxLength : Nat) :
    (of maxLength a).isValid = (of maxLength b).isValid ∧
    (of maxLength a).warnings = (of maxLength b).warnings ∧
    List.Forall₂ Fault.Recased (of maxLength a).faults (of maxLength b).faults := by
  have same : (of maxLength a).upper = (of maxLength b).upper := by
    rw [← of_upperAscii, ← of_upperAscii, Text.recased_iff.mp recased]
  obtain ⟨faults, warnings⟩ := Report.mk.inj same
  refine ⟨?_, warnings, ?_⟩
  · rw [isValid, isValid, ← List.isEmpty_map, faults, List.isEmpty_map]
  · rw [← List.forall₂_eq_eq_eq, List.forall₂_map_left_iff, List.forall₂_map_right_iff] at faults
    exact faults.imp fun _ _ => Fault.recased_of_upper

/-- Two tables put together, with a name that starts with a digit. -/
def unionOfTables : String := "select * From 1ab, b uNion All SELECT 'It''s' from T"

/-- Its findings are those of the text with the case of every letter changed. -/
theorem Report.of_recased_unionOfTables :
    let other := "SELECT * fROM 1AB, B UnION aLL select 'iT''S' FROM t"
    Text.Recased unionOfTables other ∧
    of 40 unionOfTables =
      ⟨[.dangerous .unionSelect, .numberedName "1ab"], [.selectStar, .cartesianProduct,
        .veryLong 52]⟩ ∧
    (of 40 other).isValid = false ∧
    (of 40 other).warnings = [.selectStar, .cartesianProduct, .veryLong 52] ∧
    List.Forall₂ Fault.Recased [.dangerous .unionSelect, .numberedName "1ab"]
      (of 40 other).faults := by
  intro other
  have recased : Text.Recased unionOfTables other := Text.recased_iff.mpr (by decide +kernel)
  have found : of 40 unionOfTables = ⟨[.dangerous .unionSelect, .numberedName "1ab"],
      [.selectStar, .cartesianProduct, .veryLong 52]⟩ := by
    decide +kernel
  obtain ⟨valid, warnings, faults⟩ := of_recased recased 40
  rw [found] at valid warnings faults
  exact ⟨recased, found, valid.symm, warnings.symm, faults⟩

end Sql

end RuleQuery
