/-
# Bound strings cannot be seen from outside

The compiler puts a bound string, date or timestamp into the statement as a string literal. The main
statement is that nothing in it can be seen from outside: two runs with the same parameters bound,
which differ in the contents of such values at most, give statements with the same tokens, whatever
stands between the clauses. Hence the check of the statement finds the same faults in both.

What the source of a configuration writes as SQL of its own goes into the statement as it is, and is
asked to hold no quote and no opening of a comment. Everything else is checked when it is made.
-/

import RuleQuery.Proofs.Injection.Neutral
import RuleQuery.Proofs.NameMap
import RuleQuery.Proofs.Report.Basic

namespace RuleQuery

open Sql (Environment Template Alike)

section Clauses

variable {env env' : Environment}

/-- Every clause of a statement is neutral. -/
theorem Configuration.neutral_clauses (twins : env.Twins env') {c : Configuration}
    (parts : c.Parts) (inert : ∀ s ∈ c.rawTexts, Inert s.toList) :
    ∀ t ∈ c.clauses, t.Neutral env env' := fun t mem =>
  (woven_clauses parts inert t mem).neutral twins

/-- What stands between clauses is a single blank. -/
theorem Separator.toList_text (s : Separator) :
    ∃ c, s.text.toList = [c] ∧ Sql.isSqlBlank c = true ∧ isCloser c = true := by
  cases s with
  | space => exact ⟨' ', by decide⟩
  | newline => exact ⟨'\n', by decide⟩

/-- Neutral clauses give texts that are alike, whatever blank stands between them. -/
theorem alike_joined {clauses : List Template} (neutral : ∀ t ∈ clauses, t.Neutral env env')
    (separator separator' : Separator) :
    Alike ((Template.joined separator.text clauses).fill env).toList
      ((Template.joined separator'.text clauses).fill env').toList := by
  match clauses with
  | [] => exact .nil
  | t :: rest =>
    rw [Template.joined_cons, Template.joined_cons]
    induction rest generalizing t with
    | nil => simpa using neutral t (by simp) [] [] .nil .nil .nil
    | cons u rest ih =>
        have later := ih u fun v mem => neutral v (List.mem_cons_of_mem t mem)
        obtain ⟨c, chars, blank, closer⟩ := separator.toList_text
        obtain ⟨c', chars', blank', closer'⟩ := separator'.toList_text
        have between : Alike (c :: (Template.fill env (u ++ _)).toList)
            (c' :: (Template.fill env' (u ++ _)).toList) := .blank blank blank' later
        rw [List.flatMap_cons, List.flatMap_cons, List.cons_append, List.cons_append,
          Template.toList_fill_text, Template.toList_fill_text, chars, chars']
        exact neutral t (by simp) _ _ closer closer' between

end Clauses

/-- Bindings of the same names, with the same values or values that are written as strings. -/
structure NameMap.Twins (p q : Bindings) : Prop where
  keys : p.keys = q.keys
  values : ∀ name l m, p.find? name = some l → q.find? name = some m → l.Twins m

/-- Twin bindings make twin environments: a default stands in where neither has a value. -/
theorem Configuration.environment_twins (c : Configuration) {p q : Bindings}
    (twins : NameMap.Twins p q) : (c.environment p).Twins (c.environment q) := by
  intro name
  have same : (p.find? name).isSome = true ↔ (q.find? name).isSome = true := by
    rw [NameMap.find?, lookup?_isSome, NameMap.find?, lookup?_isSome, ← NameMap.keys, twins.keys]
    rfl
  unfold environment
  cases left : p.find? name with
  | none =>
      cases right : q.find? name with
      | none =>
          cases (c.parameters.find? name).bind Parameter.default with
          | none => exact .none
          | some l => exact .some (.inl rfl)
      | some m => simp [left, right] at same
  | some l =>
      cases right : q.find? name with
      | none => simp [left, right] at same
      | some m => exact .some (twins.values name l m left right)

/-- A statement is not blank, since it starts with its keyword. -/
theorem Configuration.mem_fill_template (c : Configuration) (separator : Separator)
    (env : Environment) :
    'S' ∈ ((c.template separator).fill env).toList := by
  have first : ∃ t rest, c.clauses = (.text "SELECT " :: t) :: rest := ⟨_, _, rfl⟩
  obtain ⟨t, rest, clauses⟩ := first
  have keyword : "SELECT ".toList = 'S' :: "ELECT ".toList := by decide
  rw [template, clauses, Template.joined_cons, List.cons_append, Template.fill_cons,
    String.toList_append, Sql.Piece.fill, keyword]
  exact List.mem_cons_self

/--
The statement that a valid configuration is compiled to has the same tokens for any two bindings
that differ in the contents of strings, dates and timestamps at most, and for any two separators;
and the check finds the same faults.
-/
theorem Configuration.tokens_compile {c : Configuration} (built : c.Built)
    (valid : c.validate = .ok ()) (inert : ∀ s ∈ c.rawTexts, Inert s.toList)
    (settings settings' : Settings) {p q : Bindings} (twins : NameMap.Twins p q) :
    ∃ r r', c.compile settings p = .ok r ∧ c.compile settings' q = .ok r' ∧
      Sql.tokens r.sql.toList = Sql.tokens r'.sql.toList ∧
      ∀ n n', (Sql.Report.of n r.sql).faults = (Sql.Report.of n' r'.sql).faults := by
  have same : Sql.tokens ((c.template settings.separator).fill (c.environment p)).toList =
      Sql.tokens ((c.template settings'.separator).fill (c.environment q)).toList := by
    have neutral := neutral_clauses (c.environment_twins twins) built.parts inert
    exact (alike_joined neutral _ _).tokens_eq
  have faults (settings : Settings) (bindings : Bindings) (n : Nat) :
      (Sql.Report.of n ((c.template settings.separator).fill (c.environment bindings))).faults =
        Sql.faults (Sql.tokens
          ((c.template settings.separator).fill (c.environment bindings)).toList) := by
    rw [Sql.Report.of_shown (c.mem_fill_template settings.separator _) (by decide)]
  refine ⟨_, _, compile_of_valid valid settings p, compile_of_valid valid settings' q, same,
    fun n n' => ?_⟩
  rw [faults, faults, same]

/-- A search for the rows of one name. -/
def searchByName : Configuration :=
  (Configuration.start ⟨[⟨.raw "*", none⟩]⟩ ⟨"users", none⟩).withWhere
    (.condition ⟨.column "name", .equal, .scalar (.string (Name.placeholder "n"))⟩)

/-- A name to search for. -/
def nameBound (name : String) : Bindings :=
  NameMap.empty.insert "n" (.string name)

theorem searchByName_built : searchByName.Built := by
  have select : Select.Built ⟨[⟨.raw "*", none⟩]⟩ :=
    .single ⟨.raw "*", none, .raw "*", by decide⟩
  refine .predicate (.start select ⟨"users", none, by decide⟩) (.condition ?_)
  exact ⟨.column "name", .equal, .scalar (.string (Name.placeholder "n")), .column "name",
    .scalar _, by decide⟩

theorem nameBound_twins (name other : String) :
    NameMap.Twins (nameBound name) (nameBound other) where
  keys := rfl
  values := by
    intro parameter l m left right
    simp only [nameBound, NameMap.find?_insert, NameMap.find?_empty] at left right
    split at left
    next same =>
      rw [if_pos same] at right
      cases left
      cases right
      exact .inr ⟨rfl, rfl⟩
    · cases left

/-- A name that tries to end its literal is one token, like any other name. -/
theorem tokens_compile_searchByName :
    searchByName.Built ∧ searchByName.validate = .ok () ∧
      (∀ s ∈ searchByName.rawTexts, Inert s.toList) ∧
      NameMap.Twins (nameBound "Ann") (nameBound "' OR 1 = 1 --") ∧
      ∃ r r', searchByName.compile .default (nameBound "Ann") = .ok r ∧
        searchByName.compile ⟨.newline, 1⟩ (nameBound "' OR 1 = 1 --") = .ok r' ∧
        Sql.tokens r.sql.toList = Sql.tokens r'.sql.toList ∧
        ∀ n n', (Sql.Report.of n r.sql).faults = (Sql.Report.of n' r'.sql).faults := by
  have valid : searchByName.validate = .ok () := by decide
  have inert : ∀ s ∈ searchByName.rawTexts, Inert s.toList := by
    intro s mem
    have texts : searchByName.rawTexts = ["*"] := rfl
    rw [texts] at mem
    rw [List.mem_singleton.mp mem]
    exact .of_plain (by decide)
  have twins := nameBound_twins "Ann" "' OR 1 = 1 --"
  exact ⟨searchByName_built, valid, inert, twins,
    Configuration.tokens_compile searchByName_built valid inert .default ⟨.newline, 1⟩ twins⟩

end RuleQuery
