/-
# The report on a text that is not blank

A text of blanks is reported as empty, and nothing else is said about it. The report on any other
text is a function of its tokens and of its length without extra blanks.
-/

import RuleQuery.Sql.Check

namespace RuleQuery

/-- A text has words unless all of it is blank. -/
theorem Text.words_eq_nil_iff (cs : List Char) :
    words cs = [] ↔ ∀ c ∈ cs, isBlank c = true := by
  fun_induction words cs with
  | case1 => simp
  | case2 c cs blank ih => simp [blank, ih]
  | case3 c shown => simp [shown]
  | case4 c shown => simp [shown]
  | case5 c shown _ _ _ next => simp [shown, next]
  | case6 c shown _ _ _ _ _ next => simp [shown, next]

theorem Text.isEmpty_squeeze {s : String} {c : Char} (mem : c ∈ s.toList)
    (shown : isBlank c = false) : (squeeze s).isEmpty = false := by
  have some : words s.toList ≠ [] := by
    rw [Ne, words_eq_nil_iff]
    intro blank
    simp [blank c mem] at shown
  obtain ⟨w, ws, words⟩ := List.exists_cons_of_ne_nil some
  have listed : w ∈ Text.words s.toList := by simp [words]
  have nonempty : w ≠ [] := ne_nil_of_mem_words listed
  rw [squeeze, words]
  cases ws <;> simp [nonempty]

namespace Sql

@[simp] theorem mem_onlyIf {α : Type} {condition : Bool} {finding other : α} :
    other ∈ onlyIf condition finding ↔ condition = true ∧ other = finding := by
  cases condition <;> simp [onlyIf]

@[simp] theorem onlyIf_false {α : Type} (finding : α) : onlyIf false finding = [] := rfl

@[simp] theorem filter_onlyIf {α : Type} {condition : Bool} {finding : α} {test : α → Bool} :
    (onlyIf condition finding).filter test = onlyIf (condition && test finding) finding := by
  cases condition with
  | false => rfl
  | true => rw [Bool.true_and, onlyIf, onlyIf, if_pos rfl, List.filter_cons, List.filter_nil]

/-- A fault of the parentheses. -/
def Fault.isParenthesis : Fault → Bool
  | .unbalanced .. | .closedTooEarly => true
  | _ => false

/-- A fault of a quote without its end. -/
def Fault.isOpenQuote : Fault → Bool
  | .openQuote | .openDoubleQuote => true
  | _ => false

/-- Faults of the clauses, dangers and names are told apart from all others by their kind. -/
theorem filter_faults {test : Fault → Bool} (ts : List Token)
    (clauses : test .badStart = false ∧ test .noFrom = false ∧ test .danglingKeyword = false)
    (dangers : ∀ danger, test (.dangerous danger) = false)
    (names : ∀ w, test (.numberedName w) = false) :
    (faults ts).filter test =
      (parenthesisFaults (ts.filter fun t => !t.isComment)).filter test ++
        (quoteFaults (ts.filter fun t => !t.isComment)).filter test := by
  have noName (code : List Token) : (nameFaults code).filter test = [] := by
    rw [List.filter_eq_nil_iff]
    intro f mem
    obtain ⟨t, _, named⟩ := List.mem_filterMap.mp mem
    split at named
    · split at named <;> cases named
      simp [names]
    · cases named
  have noDanger (ds : List Danger) : (ds.map Fault.dangerous).filter test = [] := by
    simp [List.filter_eq_nil_iff, dangers]
  simp only [faults, structureFaults, List.filter_append, filter_onlyIf, clauses, noName, noDanger,
    Bool.and_false, onlyIf_false, List.nil_append, List.append_nil]

theorem filter_isParenthesis_faults (ts : List Token) :
    (faults ts).filter Fault.isParenthesis =
      parenthesisFaults (ts.filter fun t => !t.isComment) := by
  rw [filter_faults ts ⟨rfl, rfl, rfl⟩ (fun _ => rfl) fun _ => rfl]
  simp only [parenthesisFaults, quoteFaults, List.filter_append, filter_onlyIf, Fault.isParenthesis,
    Bool.and_true, Bool.and_false, onlyIf_false, List.append_nil]

theorem filter_isOpenQuote_faults (ts : List Token) :
    (faults ts).filter Fault.isOpenQuote = quoteFaults (ts.filter fun t => !t.isComment) := by
  rw [filter_faults ts ⟨rfl, rfl, rfl⟩ (fun _ => rfl) fun _ => rfl]
  simp only [parenthesisFaults, quoteFaults, List.filter_append, filter_onlyIf, Fault.isOpenQuote,
    Bool.and_true, Bool.and_false, onlyIf_false, List.nil_append, List.append_nil]

/-- The tokens of a text that are no comments. -/
def codeOf (sql : String) : List Token :=
  (tokens sql.toList).filter fun t => !t.isComment

/-- A text of blanks is reported as empty. -/
theorem Report.of_blank {sql : String} (blank : ∀ c ∈ sql.toList, Text.isBlank c = true)
    (maxLength : Nat) : Report.of maxLength sql = ⟨[.empty], []⟩ := by
  have empty : (Text.squeeze sql).isEmpty = true := by
    rw [Text.squeeze, (Text.words_eq_nil_iff _).mpr blank]
    rfl
  simp only [Report.of, empty]
  rfl

/-- What is found in a text that is not blank, by its tokens. -/
theorem Report.of_shown {sql : String} {c : Char} (mem : c ∈ sql.toList)
    (shown : Text.isBlank c = false) (maxLength : Nat) :
    Report.of maxLength sql = ⟨Sql.faults (tokens sql.toList), Sql.warnings maxLength
      (Text.squeeze sql).length ((tokens sql.toList).filter fun t => !t.isComment)⟩ := by
  simp only [Report.of, Text.isEmpty_squeeze mem shown]
  rfl

/-- A text is blank, or its report is about its tokens. -/
theorem Report.of_cases (maxLength : Nat) (sql : String) :
    ((∀ c ∈ sql.toList, Text.isBlank c = true) ∧ Report.of maxLength sql = ⟨[.empty], []⟩) ∨
      Report.of maxLength sql = ⟨Sql.faults (tokens sql.toList),
        Sql.warnings maxLength (Text.squeeze sql).length (codeOf sql)⟩ := by
  by_cases blank : ∀ c ∈ sql.toList, Text.isBlank c = true
  · exact .inl ⟨blank, of_blank blank maxLength⟩
  · obtain ⟨c, mem, shown⟩ : ∃ c ∈ sql.toList, Text.isBlank c = false := by
      simpa using blank
    exact .inr (of_shown mem shown maxLength)

end Sql

end RuleQuery
