/-
# A statement is its clauses

A compiled statement is put together from its clauses with one blank between neighbours. The main
statement is that its tokens are those of the clauses, each taken on its own, one after another:
no clause reaches over into the next one, whatever values are put in and whatever the separator is.

The reason is that a text which is cut like another one, in the sense of `Alike`, has no comment and
closes every string, and so a clause ends in code.
-/

import RuleQuery.Proofs.Injection.Statement
import RuleQuery.Proofs.Lexeme.Plain
import RuleQuery.Proofs.Lexeme.Spacing

namespace RuleQuery

namespace Sql

open Lexeme (EndsInCode)

/-! ## Texts that are cut alike -/

/--
No token is left open or is a comment, and none is if the lexer is inside the word at the front of
the text. The second part is what goes through the words of a text one character at a time.
-/
structure AllCode (a : List Char) : Prop where
  tokens : ∀ t ∈ tokens a, t.isOpen = false ∧ t.isComment = false
  afterWord : ∀ t ∈ Sql.tokens (a.dropWhile isWordChar), t.isOpen = false ∧ t.isComment = false

theorem AllCode.of_not_word {c : Char} {a : List Char} (notWord : ¬ isWordChar c = true)
    (code : ∀ t ∈ Sql.tokens (c :: a), t.isOpen = false ∧ t.isComment = false) :
    AllCode (c :: a) where
  tokens := code
  afterWord := by rwa [List.dropWhile_cons_of_neg notWord]

/-- A text that is cut like another one has no comment and closes every string. -/
theorem Alike.allCode {a b : List Char} (alike : Alike a b) : AllCode a := by
  induction alike with
  | nil => constructor <;> simp
  | blank left _ _ ih =>
      refine .of_not_word (by simp [isWordChar_of_isSqlBlank left]) ?_
      rw [tokens_blank left]
      exact ih.tokens
  | @code c a _ unquoted left _ _ ih =>
      by_cases word : isWordChar c = true
      · constructor
        · rw [tokens_word word unquoted]
          exact List.forall_mem_cons.mpr ⟨⟨rfl, rfl⟩, ih.afterWord⟩
        · rw [List.dropWhile_cons_of_pos word]
          exact ih.afterWord
      · refine .of_not_word word ?_
        by_cases blank : isSqlBlank c = true
        · rw [tokens_blank blank]
          exact ih.tokens
        · have symbol : (symbolToken c).isOpen = false ∧ (symbolToken c).isComment = false := by
            unfold symbolToken
            split <;> exact ⟨rfl, rfl⟩
          rw [tokens_symbol blank word unquoted left]
          exact List.forall_mem_cons.mpr ⟨symbol, ih.tokens⟩
  | string s _ left _ _ ih =>
      have whole := tokens_string s left
      rw [List.cons_append] at whole ⊢
      refine .of_not_word (by decide) ?_
      rw [whole]
      exact List.forall_mem_cons.mpr ⟨⟨rfl, rfl⟩, ih.tokens⟩

theorem Alike.endsInCode {a b : List Char} (alike : Alike a b) : EndsInCode a := by
  refine Lexeme.endsInCode_of_tokens (fun t mem => (alike.allCode.tokens t mem).1) fun last => ?_
  have code := (alike.allCode.tokens _ (List.mem_of_getLast? last)).2
  cases code

/-! ## Templates one behind the other -/

variable {env : Environment}

/-- The text of joined templates begins with that of the first one and the separator. -/
theorem Template.toList_fill_joined_cons (separator : String) (t u : Template)
    (rest : List Template) :
    ((joined separator (t :: u :: rest)).fill env).toList =
      (t.fill env).toList ++
        (separator.toList ++ ((joined separator (u :: rest)).fill env).toList) := by
  rw [joined, List.intercalate_cons_cons, ← joined]
  simp [Piece.fill]

/-- With a space between them, templates that end in code have the tokens of each of them. -/
theorem Template.tokens_fill_joined {parts : List Template}
    (code : ∀ t ∈ parts, EndsInCode (t.fill env).toList) :
    EndsInCode ((joined " " parts).fill env).toList ∧
      tokens ((joined " " parts).fill env).toList =
        parts.flatMap fun t => tokens (t.fill env).toList := by
  match parts with
  | [] => exact ⟨Alike.nil.endsInCode, by simp [joined]⟩
  | [t] => simpa [joined] using code t
  | t :: u :: rest =>
    have first := code t List.mem_cons_self
    have behind : ∀ v ∈ u :: rest, EndsInCode (v.fill env).toList := fun v mem =>
      code v (List.mem_cons_of_mem t mem)
    obtain ⟨later, shown⟩ := tokens_fill_joined behind
    rw [toList_fill_joined_cons, List.flatMap_cons, ← shown]
    exact ⟨first.append later, first.tokens_append _⟩

end Sql

open Sql (Environment)
open Sql.Lexeme (EndsInCode)

/-- An environment does not differ from itself. -/
theorem Sql.Environment.Twins.refl (env : Environment) : env.Twins env := by
  intro name
  cases env name with
  | none => exact .none
  | some l => exact .some (.inl rfl)

/-- Every clause of a statement ends in code. -/
theorem Configuration.endsInCode_clauses {c : Configuration} (parts : c.Parts)
    (inert : ∀ s ∈ c.rawTexts, Inert s.toList) (env : Environment) :
    ∀ t ∈ c.clauses, EndsInCode (t.fill env).toList := by
  intro t mem
  have neutral := neutral_clauses (.refl env) parts inert t mem [] [] .nil .nil .nil
  rw [List.append_nil] at neutral
  exact neutral.endsInCode

/--
The tokens of the statement that a valid configuration is compiled to are those of its clauses, one
clause after another, for any values and for any separator. And the statement ends in code itself.
-/
theorem Configuration.tokens_compile_clauses {c : Configuration} (built : c.Built)
    (valid : c.validate = .ok ()) (inert : ∀ s ∈ c.rawTexts, Inert s.toList) (settings : Settings)
    (p : Bindings) : ∃ r, c.compile settings p = .ok r ∧ EndsInCode r.sql.toList ∧
      Sql.tokens r.sql.toList =
        c.clauses.flatMap fun t => Sql.tokens (t.fill (c.environment p)).toList := by
  have neutral := neutral_clauses (.refl (c.environment p)) built.parts inert
  have spaced := alike_joined neutral settings.separator .space
  have code := endsInCode_clauses built.parts inert (c.environment p)
  refine ⟨_, compile_of_valid valid settings p, spaced.endsInCode, ?_⟩
  calc Sql.tokens ((c.template settings.separator).fill (c.environment p)).toList
    _ = Sql.tokens ((c.template .space).fill (c.environment p)).toList := spaced.tokens_eq
    _ = _ := (Sql.Template.tokens_fill_joined code).2

end RuleQuery
