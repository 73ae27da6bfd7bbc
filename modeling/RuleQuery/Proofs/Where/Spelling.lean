/-
# One spelling for each text

A condition is spelled like anything else that may stand in a statement, so its text can hold words
like AND and parentheses of its own. What keeps the symbols of a search condition apart is how they
start: a condition starts with its field, and so with a letter or an underscore, and a connective or
a parenthesis does not. Hence a text is the spelling of at most one sequence of symbols with given
conditions.
-/

import RuleQuery.Proofs.Construction
import RuleQuery.Proofs.Name
import RuleQuery.Proofs.Where.Reading

namespace RuleQuery

open Sql (Environment Template)

/-- The text of a template starts with a letter or an underscore. -/
def Sql.Template.StartsWord (env : Environment) (t : Template) : Prop :=
  ∃ d cs, (t.fill env).toList = d :: cs ∧ Name.isStart d = true

namespace Sql.Template

variable {env : Environment}

theorem startsWord_text {s : String} {t : Template} {d : Char} {cs : List Char}
    (chars : s.toList = d :: cs) (start : Name.isStart d = true) :
    StartsWord env (.text s :: t) :=
  ⟨d, cs ++ (t.fill env).toList, by simp [Piece.fill, chars], start⟩

theorem StartsWord.append {t : Template} (h : t.StartsWord env) (u : Template) :
    StartsWord env (t ++ u) := by
  obtain ⟨d, cs, chars, start⟩ := h
  exact ⟨d, cs ++ (u.fill env).toList, by simp [chars], start⟩

end Sql.Template

/-- A call is written with its function first. -/
theorem Call.Built.startsWord {env : Environment} {c : Call} (built : c.Built) :
    c.template.StartsWord env := by
  obtain ⟨function, args, _, made⟩ := built
  obtain ⟨rfl, identifier, _, _⟩ := Call.of_make made
  have upper := Name.isIdentifier_upperAscii identifier
  show Template.StartsWord env (.text (if Text.upperAscii function = "COUNT_DISTINCT"
    then "COUNT(DISTINCT " else Text.upperAscii function ++ "(") :: _)
  cases chars : (Text.upperAscii function).toList with
  | nil => simp [Name.isIdentifier, chars, Name.isIdentifierChars] at upper
  | cons d cs =>
      simp only [Name.isIdentifier, chars, Name.isIdentifierChars, Bool.and_eq_true] at upper
      by_cases distinct : Text.upperAscii function = "COUNT_DISTINCT"
      · rw [if_pos distinct]
        exact Template.startsWord_text rfl rfl
      · rw [if_neg distinct]
        have opening : (Text.upperAscii function ++ "(").toList = d :: (cs ++ ['(']) := by
          simp [chars]
        exact Template.startsWord_text opening upper.1

/-- A field that passes its check starts a word. -/
theorem Field.Built.startsWord {env : Environment} {f : Field} (built : f.Built)
    (checked : f.check = .ok ()) : f.template.StartsWord env := by
  cases built with
  | column name =>
      have dotted : Name.isDotted name = true := by
        by_contra h
        simp [Field.check, h] at checked
      cases chars : name.toList with
      | nil => simp [Name.isDotted, chars, Name.isDottedChars] at dotted
      | cons d cs =>
          simp only [Name.isDotted, chars, Name.isDottedChars, Bool.and_eq_true] at dotted
          exact Template.startsWord_text chars dotted.1
  | call built => exact Call.Built.startsWord built

/-- Every condition is written with its field first. -/
theorem Condition.template_eq_append (c : Condition) :
    ∃ t, c.template = c.field.template ++ t := by
  unfold Condition.template
  split <;> exact ⟨_, rfl⟩

theorem Condition.Built.startsWord {env : Environment} {c : Condition} (built : c.Built) :
    c.template.StartsWord env := by
  obtain ⟨field, op, value, fieldBuilt, _, made⟩ := built
  obtain ⟨rfl, checked, _⟩ := Condition.of_make made
  obtain ⟨t, split⟩ := Condition.template_eq_append ⟨field, op, value.normal⟩
  rw [split]
  exact (fieldBuilt.startsWord checked).append t

namespace Symbol

variable {env : Environment}

/-- A symbol that stands between conditions. -/
def IsGap (a : Symbol) : Prop := ∀ c, a ≠ .condition c

theorem condition_or_gap (a : Symbol) : (∃ c, a = .condition c) ∨ a.IsGap := by
  cases a with
  | condition c => exact .inl ⟨c, rfl⟩
  | _ => exact .inr fun _ same => by cases same

theorem conditions_gap {a : Symbol} (gap : a.IsGap) (s : List Symbol) :
    conditions (a :: s) = conditions s := by
  cases a with
  | condition c => exact absurd rfl (gap c)
  | _ => rfl

theorem text_ne_empty {a : Symbol} (gap : a.IsGap) : a.text env ≠ "" := by
  rcases a with c | (_ | _) | _ | _
  · exact absurd rfl (gap c)
  all_goals simp [Symbol.text, Connective.symbol]

/-- No text starts both with a condition and with what stands between conditions. -/
theorem spell_condition_ne {c : Condition} {s t : List Symbol} {a : Symbol}
    (starts : c.template.StartsWord env) (gap : a.IsGap) :
    spell env (.condition c :: s) ≠ spell env (a :: t) := by
  intro same
  obtain ⟨d, cs, chars, start⟩ := starts
  have heads := congrArg (fun u => u.toList.head?) same
  have closed (e : Char) (h : d = e) (no : Name.isStart e = false) : False := by
    rw [h, no] at start
    cases start
  rcases a with c | (_ | _) | _ | _
  · exact gap c rfl
  all_goals
    simp only [spell_cons, Symbol.text, Connective.symbol, String.toList_append, chars,
      List.cons_append, List.head?_cons] at heads
    exact closed _ (Option.some.inj heads) rfl

/-- The symbols between conditions are told apart by their texts. -/
theorem text_append_inj {a b : Symbol} {x y : String} (ha : a.IsGap) (hb : b.IsGap)
    (same : a.text env ++ x = b.text env ++ y) : a = b ∧ x = y := by
  have chars := congrArg String.toList same
  rcases a with c | (_ | _) | _ | _
  · exact absurd rfl (ha c)
  all_goals
    rcases b with d | (_ | _) | _ | _
    · exact absurd rfl (hb d)
    all_goals
      simp [Symbol.text, Connective.symbol, String.toList_inj] at chars
      try exact ⟨rfl, chars⟩

/-- A text is the spelling of at most one sequence of symbols with given conditions. -/
theorem spell_injective {s t : List Symbol}
    (starts : ∀ c ∈ conditions s, Condition.template c |>.StartsWord env)
    (atoms : conditions s = conditions t) (same : spell env s = spell env t) : s = t := by
  induction s generalizing t with
  | nil =>
      cases t with
      | nil => rfl
      | cons b t =>
          rcases b.condition_or_gap with ⟨d, rfl⟩ | gap
          · cases atoms
          · simp [text_ne_empty gap] at same
  | cons a s ih =>
      cases t with
      | nil =>
          rcases a.condition_or_gap with ⟨c, rfl⟩ | gap
          · cases atoms
          · simp [text_ne_empty gap] at same
      | cons b t =>
          rcases a.condition_or_gap with ⟨c, rfl⟩ | gapA <;>
            rcases b.condition_or_gap with ⟨d, rfl⟩ | gapB
          · simp only [conditions_condition, List.cons.injEq] at atoms
            obtain ⟨rfl, atoms⟩ := atoms
            have rest : spell env s = spell env t := by simpa using same
            rw [ih (fun c mem => starts c (by simp [mem])) atoms rest]
          · exact absurd same (spell_condition_ne (starts c (by simp)) gapB)
          · have first : d.template.StartsWord env := starts d (by simp [atoms])
            exact absurd same.symm (spell_condition_ne first gapA)
          · rw [conditions_gap gapA] at starts atoms
            rw [conditions_gap gapB] at atoms
            simp only [spell_cons] at same
            obtain ⟨rfl, rest⟩ := text_append_inj gapA gapB same
            rw [ih starts atoms rest]

end Symbol

end RuleQuery
