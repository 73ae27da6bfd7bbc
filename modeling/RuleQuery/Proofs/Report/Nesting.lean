/-
# Parentheses that match

Parentheses count where they stand for themselves, not in strings, quoted names and comments. Those
that are left match if they form groups, one behind the other, with matching parentheses in each.

The check goes about it in two ways. It compares how many there are of either kind, and it follows
the depth until a parenthesis closes what is not open. Each test alone lets something pass, `(()` or
`)(`; the main statement says that together they find exactly the texts whose parentheses do not
match, and when either of them reports a fault. That counting is enough is the theorem on Dyck
words, which are defined by counting in the library and have a first group to split off.
-/

import Mathlib.Combinatorics.Enumerative.DyckWord
import RuleQuery.Proofs.Lexeme.Pieces
import RuleQuery.Proofs.Report.Basic

namespace RuleQuery.Sql

open Lexeme

/-! ## Matching parentheses -/

/-- Groups in parentheses, one behind the other. -/
inductive Nested : List Char → Prop
  | nil : Nested []
  | group {inside rest} (inner : Nested inside) (others : Nested rest) :
      Nested ('(' :: (inside ++ ')' :: rest))

/-- A token whose text is no code. -/
def Token.isCovered : Token → Bool
  | .string _ | .quotedName _ | .lineComment | .blockComment _ => true
  | _ => false

/-- A parenthesis of either kind. -/
def isParenthesis (c : Char) : Bool := c == '(' || c == ')'

/-- The parentheses of a text outside of strings, quoted names and comments. -/
def parentheses (sql : String) : List Char :=
  (textOf ((all sql.toList).filter fun l => !l.token.isCovered)).filter isParenthesis

/-- The parenthesis that goes with a step of a Dyck word. -/
def parenthesisOf : DyckStep → Char
  | .U => '('
  | .D => ')'

theorem parenthesisOf_injective : Function.Injective parenthesisOf := by
  intro s t same
  cases s <;> cases t <;> first | rfl | exact absurd same (by decide)

theorem toList_nest_add (v w : DyckWord) :
    (v.nest + w).toList = .U :: (v.toList ++ .D :: w.toList) := by
  show [.U] ++ v.toList ++ [.D] ++ w.toList = _
  simp

/-- A Dyck word is made of its first group and the others. -/
theorem nested_dyckWord (w : DyckWord) : Nested (w.toList.map parenthesisOf) := by
  by_cases empty : w = 0
  · subst empty
    exact .nil
  · have inner := nested_dyckWord w.insidePart
    have others := nested_dyckWord w.outsidePart
    rw [← w.nest_insidePart_add_outsidePart empty, toList_nest_add, List.map_cons,
      List.map_append, List.map_cons]
    exact .group inner others
termination_by w.semilength
decreasing_by
  · exact w.semilength_insidePart_lt empty
  · exact w.semilength_outsidePart_lt empty

theorem Nested.exists_dyckWord {ps : List Char} (nested : Nested ps) :
    ∃ w : DyckWord, w.toList.map parenthesisOf = ps := by
  induction nested with
  | nil => exact ⟨0, rfl⟩
  | group _ _ inner others =>
      obtain ⟨v, rfl⟩ := inner
      obtain ⟨w, rfl⟩ := others
      refine ⟨v.nest + w, ?_⟩
      rw [toList_nest_add, List.map_cons, List.map_append, List.map_cons]
      rfl

/-- Parentheses match if there are as many of either kind and none is closed too early. -/
theorem nested_iff {ps : List Char} (only : ∀ c ∈ ps, isParenthesis c = true) :
    Nested ps ↔ ps.count '(' = ps.count ')' ∧
      ∀ front, front <+: ps → front.count ')' ≤ front.count '(' := by
  have opening (steps : List DyckStep) : (steps.map parenthesisOf).count '(' = steps.count .U :=
    List.count_map_of_injective steps parenthesisOf parenthesisOf_injective .U
  have closing (steps : List DyckStep) : (steps.map parenthesisOf).count ')' = steps.count .D :=
    List.count_map_of_injective steps parenthesisOf parenthesisOf_injective .D
  constructor
  · intro nested
    obtain ⟨w, rfl⟩ := nested.exists_dyckWord
    refine ⟨by rw [opening, closing, w.count_U_eq_count_D], fun front start => ?_⟩
    rw [List.prefix_iff_eq_take.mp start, ← List.map_take, opening, closing]
    exact w.count_D_le_count_U _
  · rintro ⟨same, early⟩
    have steps : ps ∈ Set.range (List.map parenthesisOf) := by
      rw [Set.range_list_map]
      intro c mem
      rcases Bool.or_eq_true _ _ |>.mp (only c mem) with same | same
      · exact ⟨.U, (beq_iff_eq.mp same).symm⟩
      · exact ⟨.D, (beq_iff_eq.mp same).symm⟩
    obtain ⟨steps, rfl⟩ := steps
    refine nested_dyckWord ⟨steps, by rwa [opening, closing] at same, fun i => ?_⟩
    have front := early ((steps.map parenthesisOf).take i) (List.take_prefix i _)
    rwa [← List.map_take, opening, closing] at front

/-! ## What the check finds -/

/-- The parenthesis that a token is. -/
def Token.parenthesis? : Token → Option Char
  | .openParen => some '('
  | .closeParen => some ')'
  | _ => none

variable {ts : List Token}

theorem count_parentheses {t : Token} {c : Char}
    (only : ∀ u : Token, u.parenthesis? = some c ↔ u = t) (ts : List Token) :
    ts.count t = (ts.filterMap Token.parenthesis?).count c := by
  rw [List.count_filterMap, List.count_eq_countP]
  refine List.countP_congr fun u _ => ?_
  rw [beq_iff_eq, beq_iff_eq, only]

theorem parenthesis?_eq_open (t : Token) : t.parenthesis? = some '(' ↔ t = .openParen := by
  cases t <;> simp [Token.parenthesis?]

theorem parenthesis?_eq_close (t : Token) : t.parenthesis? = some ')' ↔ t = .closeParen := by
  cases t <;> simp [Token.parenthesis?]

/-- The beginnings of a text are the empty one and those with its first character. -/
theorem exists_prefix_cons_iff {P : List Char → Prop} {c : Char} {ps : List Char} :
    (∃ front, front <+: c :: ps ∧ P front) ↔ P [] ∨ ∃ front, front <+: ps ∧ P (c :: front) := by
  constructor
  · rintro ⟨front, start, holds⟩
    rcases List.prefix_cons_iff.mp start with rfl | ⟨front, rfl, inside⟩
    · exact .inl holds
    · exact .inr ⟨front, inside, holds⟩
  · rintro (holds | ⟨front, start, holds⟩)
    · exact ⟨[], List.nil_prefix, holds⟩
    · exact ⟨c :: front, List.cons_prefix_cons.mpr ⟨rfl, start⟩, holds⟩

/-- A parenthesis is closed too early where more have been closed than opened. -/
theorem closesTooEarly_iff (depth : Nat) (ts : List Token) : closesTooEarly depth ts = true ↔
    ∃ front, front <+: ts.filterMap Token.parenthesis? ∧
      front.count '(' + depth < front.count ')' := by
  fun_induction closesTooEarly depth ts with
  | case1 depth => simp
  | case2 depth rest ih =>
      have opened : (Token.openParen :: rest).filterMap Token.parenthesis? =
          '(' :: rest.filterMap Token.parenthesis? := rfl
      simp [ih, opened, exists_prefix_cons_iff, Nat.add_assoc, Nat.add_comm 1]
  | case3 rest =>
      have closed : (Token.closeParen :: rest).filterMap Token.parenthesis? =
          ')' :: rest.filterMap Token.parenthesis? := rfl
      rw [closed, exists_prefix_cons_iff]
      exact iff_of_true rfl (.inr ⟨[], List.nil_prefix, by decide⟩)
  | case4 rest depth ih =>
      have closed : (Token.closeParen :: rest).filterMap Token.parenthesis? =
          ')' :: rest.filterMap Token.parenthesis? := rfl
      simp [ih, closed, exists_prefix_cons_iff, ← Nat.add_assoc]
  | case5 depth t rest notOpen notClose ih =>
      have other : t.parenthesis? = none := by
        cases t <;> simp_all [Token.parenthesis?]
      rw [List.filterMap_cons_none other]
      exact ih

/-- What is found in the parentheses of some tokens. -/
theorem mem_parenthesisFaults_iff {f : Fault} : f ∈ parenthesisFaults ts ↔
    ((ts.filterMap Token.parenthesis?).count '(' ≠ (ts.filterMap Token.parenthesis?).count ')' ∧
      f = .unbalanced ((ts.filterMap Token.parenthesis?).count '(')
        ((ts.filterMap Token.parenthesis?).count ')')) ∨
    (∃ front, front <+: ts.filterMap Token.parenthesis? ∧ front.count '(' < front.count ')') ∧
      f = .closedTooEarly := by
  have early := closesTooEarly_iff 0 ts
  simp only [Nat.add_zero] at early
  rw [parenthesisFaults, List.mem_append, mem_onlyIf, mem_onlyIf, early, bne_iff_ne,
    count_parentheses parenthesis?_eq_open, count_parentheses parenthesis?_eq_close]

/-! ## Tokens and text -/

/-- A piece of code has the parenthesis that its token is, and no other one. -/
theorem filter_isParenthesis_of_cut {c : Char} {cs rest : List Char} {l : Lexeme}
    (cut : Cut c cs rest l) (code : l.token.isCovered = false) :
    l.text.filter isParenthesis = l.token.parenthesis?.toList := by
  have none {test : Char → Bool} (first : test c = true)
      (apart : test '(' = false ∧ test ')' = false) :
      (c :: cs.takeWhile test).filter isParenthesis = [] := by
    rw [List.filter_eq_nil_iff]
    intro d mem same
    have passes : test d = true := forall_mem_run first d mem
    rcases Bool.or_eq_true _ _ |>.mp same with same | same
    · rw [beq_iff_eq.mp same, apart.1] at passes
      cases passes
    · rw [beq_iff_eq.mp same, apart.2] at passes
      cases passes
  cases cut with
  | blank blank => exact none blank (by decide)
  | word word => exact none word (by decide)
  | symbol =>
      unfold symbolToken
      split <;> simp_all [isParenthesis, Token.parenthesis?]
  | _ => cases code

theorem parenthesis?_of_isCovered {t : Token} (covered : t.isCovered = true) :
    t.parenthesis? = none := by
  cases t <;> first | rfl | cases covered

/-- The tokens that are parentheses are the parentheses of the text. -/
theorem filterMap_parenthesis? (sql : String) :
    (codeOf sql).filterMap Token.parenthesis? = parentheses sql := by
  have bare (ts : List Token) : ((ts.filter (· ≠ .blank)).filter fun t => !t.isComment).filterMap
      Token.parenthesis? = ts.filterMap Token.parenthesis? := by
    rw [List.filterMap_filter, List.filterMap_filter]
    refine List.filterMap_congr fun t _ => ?_
    cases t <;> rfl
  rw [codeOf, tokens, bare, parentheses]
  induction sql.toList using all.induct with
  | case1 => simp [all]
  | case2 c cs ih =>
      rw [all, List.map_cons, List.filterMap_cons, List.filter_cons, ih]
      by_cases covered : (next c cs).1.token.isCovered = true
      · simp [covered, parenthesis?_of_isCovered covered]
      · have code := filter_isParenthesis_of_cut (cut_next c cs) (Bool.eq_false_iff.mpr covered)
        rw [if_pos (by simpa using covered), textOf_cons, List.filter_append, code]
        cases (next c cs).1.token.parenthesis? <;> rfl

/-- The parentheses of a text are characters of it. -/
theorem mem_of_mem_parentheses {sql : String} {c : Char} (mem : c ∈ parentheses sql) :
    c ∈ sql.toList ∧ isParenthesis c = true := by
  obtain ⟨inside, kind⟩ := List.mem_filter.mp mem
  obtain ⟨l, listed, inside⟩ := List.mem_flatMap.mp inside
  refine ⟨?_, kind⟩
  rw [← textOf_all sql.toList]
  exact List.mem_flatMap.mpr ⟨l, List.mem_of_mem_filter listed, inside⟩

theorem isBlank_of_isParenthesis {c : Char} (kind : isParenthesis c = true) :
    Text.isBlank c = false := by
  rcases Bool.or_eq_true _ _ |>.mp kind with same | same <;> rw [beq_iff_eq.mp same] <;> decide

/-- The faults of its parentheses are found in every text, also in a blank one, which has none. -/
theorem Report.filter_isParenthesis (sql : String) (maxLength : Nat) :
    (of maxLength sql).faults.filter Fault.isParenthesis = parenthesisFaults (codeOf sql) := by
  rcases of_cases maxLength sql with ⟨blank, report⟩ | report
  · have none : parentheses sql = [] := by
      rw [List.eq_nil_iff_forall_not_mem]
      intro c mem
      obtain ⟨inside, kind⟩ := mem_of_mem_parentheses mem
      have shown := isBlank_of_isParenthesis kind
      simp [blank c inside] at shown
    have silent : parenthesisFaults (codeOf sql) = [] := by
      rw [List.eq_nil_iff_forall_not_mem]
      intro f mem
      rw [mem_parenthesisFaults_iff, filterMap_parenthesis?, none] at mem
      simp at mem
    rw [report, silent]
    rfl
  · rw [report]
    exact filter_isParenthesis_faults (tokens sql.toList)

theorem Report.mem_parentheses_iff (sql : String) (maxLength : Nat) {f : Fault}
    (kind : f.isParenthesis = true) : f ∈ (of maxLength sql).faults ↔
    ((parentheses sql).count '(' ≠ (parentheses sql).count ')' ∧
      f = .unbalanced ((parentheses sql).count '(') ((parentheses sql).count ')')) ∨
    (∃ front, front <+: parentheses sql ∧ front.count '(' < front.count ')') ∧
      f = .closedTooEarly := by
  have part : f ∈ (of maxLength sql).faults ↔
      f ∈ (of maxLength sql).faults.filter Fault.isParenthesis := by
    simp [kind]
  rw [part, filter_isParenthesis, mem_parenthesisFaults_iff, filterMap_parenthesis?]

/--
A text is reported for its parentheses exactly if they do not match: for their numbers, which are
given, if there are not as many of either kind, and once for the order if somewhere more have been
closed than opened.
-/
theorem Report.parentheses_nested_iff (sql : String) (maxLength : Nat) :
    ((∀ f ∈ (of maxLength sql).faults, f.isParenthesis = false) ↔ Nested (parentheses sql)) ∧
    (∀ opening closing, .unbalanced opening closing ∈ (of maxLength sql).faults ↔
      opening = (parentheses sql).count '(' ∧ closing = (parentheses sql).count ')' ∧
        opening ≠ closing) ∧
    (.closedTooEarly ∈ (of maxLength sql).faults ↔
      ∃ front, front <+: parentheses sql ∧ front.count '(' < front.count ')') ∧
    (of maxLength sql).faults.count .closedTooEarly ≤ 1 := by
  have found {f : Fault} (kind : f.isParenthesis = true) := mem_parentheses_iff sql maxLength kind
  refine ⟨?_, fun opening closing => ?_, ?_, ?_⟩
  · rw [nested_iff fun c mem => (mem_of_mem_parentheses mem).2]
    constructor
    · intro none
      refine ⟨by_contra fun differ => ?_, fun front start => not_lt.mp fun early => ?_⟩
      · cases none _ ((found rfl).mpr (.inl ⟨differ, rfl⟩))
      · cases none _ ((found rfl).mpr (.inr ⟨⟨front, start, early⟩, rfl⟩))
    · rintro ⟨same, early⟩ f mem
      rw [Bool.eq_false_iff]
      intro kind
      rcases (found kind).mp mem with ⟨differ, _⟩ | ⟨⟨front, start, more⟩, _⟩
      · exact differ same
      · exact absurd (early front start) (not_le.mpr more)
  · rw [found rfl]
    constructor
    · rintro (⟨differ, same⟩ | ⟨_, other⟩)
      · obtain ⟨rfl, rfl⟩ := Fault.unbalanced.inj same
        exact ⟨rfl, rfl, differ⟩
      · cases other
    · rintro ⟨rfl, rfl, differ⟩
      exact .inl ⟨differ, rfl⟩
  · rw [found rfl]
    simp
  · rw [← List.count_filter (p := Fault.isParenthesis) rfl, filter_isParenthesis, parenthesisFaults,
      List.count_append]
    unfold onlyIf
    split <;> split <;> simp

end RuleQuery.Sql
