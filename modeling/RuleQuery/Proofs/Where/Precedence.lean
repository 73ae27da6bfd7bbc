/-
# Parentheses where precedence needs them

The WHERE clause is rendered with few parentheses: which member gets them is inferred from the
shape of the tree. The main statement is that none is missing. There is exactly one way to take the
text after `WHERE ` as a sequence of the conditions of the clause, in order, with connectives and
parentheses between them; and that sequence, read with the usual precedence, has exactly one truth
value, which is the value of the tree.

The proof follows the rendering. `Predicate.symbols` is the sequence that a predicate is rendered
to, `fill_template` says that the text is its spelling, and `reads_symbols` that reading it gives
the value of the predicate. A predicate that needs no parentheses is in the end a single condition,
which is why it may stand beside AND and OR as it is.
-/

import RuleQuery.Proofs.Where.Spelling

namespace RuleQuery

open Sql (Environment Template)

/-- The truth value of members joined by a connective. -/
def Connective.join : Connective → List Bool → Bool
  | .and, values => values.all id
  | .or, values => values.any id

namespace Predicate

mutual

/-- The truth value of a predicate, given those of the conditions. -/
def holds (value : Condition → Bool) : Predicate → Bool
  | .condition c => value c
  | .group connective members => connective.join (memberValues value members)

def memberValues (value : Condition → Bool) : List Predicate → List Bool
  | [] => []
  | p :: ps => p.holds value :: memberValues value ps

end

mutual

/-- The symbols that a predicate is rendered to. -/
def symbols : Predicate → List Symbol
  | .condition c => [.condition c]
  | .group _ [only] => only.symbols
  | .group connective members =>
    List.intercalate [.connective connective] (memberSymbols members)

def memberSymbols : List Predicate → List (List Symbol)
  | [] => []
  | p :: ps =>
    (if p.needsParentheses then .opening :: p.symbols ++ [.closing] else p.symbols) ::
      memberSymbols ps

end

end Predicate

/-- The truth value of the clause: all its members hold. -/
def WhereClause.holds (value : Condition → Bool) (w : WhereClause) : Bool :=
  (Predicate.memberValues value w.members).all id

/-- A template and a sequence of symbols with the same text. -/
def SameText (env : Environment) (t : Template) (s : List Symbol) : Prop :=
  t.fill env = Symbol.spell env s

/-- Joining templates and joining symbols keeps the texts the same. -/
theorem SameText.intercalate {env : Environment} {connective : Connective}
    {templates : List Template} {parts : List (List Symbol)}
    (same : List.Forall₂ (SameText env) templates parts) :
    SameText env (Template.joined (" " ++ connective.symbol ++ " ") templates)
      (List.intercalate [.connective connective] parts) := by
  have tails (templates : List Template) (parts : List (List Symbol))
      (same : List.Forall₂ (SameText env) templates parts) :
      SameText env (templates.flatMap (.text (" " ++ connective.symbol ++ " ") :: ·))
        (parts.flatMap (.connective connective :: ·)) := by
    induction same with
    | nil => rfl
    | cons head _ ih =>
        unfold SameText at head ih ⊢
        simp [Symbol.text, Sql.Piece.fill, head, ih]
  cases same with
  | nil => rfl
  | cons head rest =>
      have tail := tails _ _ rest
      unfold SameText at head tail ⊢
      rw [Template.joined_cons, Symbol.intercalate_cons, Template.fill_append,
        Symbol.spell_append, head, tail]

namespace Predicate

mutual

/-- A predicate is rendered to the text of its symbols. -/
theorem fill_template (env : Environment) : (p : Predicate) → SameText env p.template p.symbols
  | .condition c => by simp [SameText, template, symbols, Symbol.spell, Symbol.text]
  | .group _ [only] => by
      rw [template, symbols]
      exact fill_template env only
  | .group _ [] => rfl
  | .group connective (p :: q :: rest) => by
      rw [template, symbols]
      · exact SameText.intercalate (fill_memberTemplates env (p :: q :: rest))
      all_goals simp

theorem fill_memberTemplates (env : Environment) : (ps : List Predicate) →
    List.Forall₂ (SameText env) (memberTemplates ps) (memberSymbols ps)
  | [] => by
      rw [memberTemplates, memberSymbols]
      exact .nil
  | p :: ps => by
      rw [memberTemplates, memberSymbols]
      refine .cons ?_ (fill_memberTemplates env ps)
      have same : p.template.fill env = Symbol.spell env p.symbols := fill_template env p
      split
      · simp [SameText, Template.parenthesized, Symbol.text, Sql.Piece.fill, same]
      · exact same

end

variable {value : Condition → Bool}

/-- A group with a single member has the value of that member. -/
theorem holds_single (connective : Connective) (only : Predicate) :
    (Predicate.group connective [only]).holds value = only.holds value := by
  cases connective <;> simp [holds, memberValues, Connective.join]

mutual

/-- Every group in a predicate has a member. -/
def Grouped : Predicate → Prop
  | .condition _ => True
  | .group _ members => members ≠ [] ∧ AllGrouped members

def AllGrouped : List Predicate → Prop
  | [] => True
  | p :: ps => p.Grouped ∧ AllGrouped ps

end

theorem allGrouped_of_forall {ps : List Predicate} (h : ∀ p ∈ ps, p.Grouped) : AllGrouped ps := by
  induction ps with
  | nil => trivial
  | cons p ps ih => exact ⟨h p (by simp), ih fun q mem => h q (by simp [mem])⟩

/-- The constructor of groups asks for a member. -/
theorem Built.grouped {p : Predicate} (built : p.Built) : p.Grouped := by
  induction built with
  | condition _ => trivial
  | group _ made ih =>
      obtain ⟨members, nonempty⟩ := Group.of_make made
      rw [Group.toPredicate, members]
      exact ⟨nonempty, allGrouped_of_forall ih⟩

/-- A predicate without need of parentheses is a condition, wrapped any number of times. -/
theorem reads_operand : (p : Predicate) → p.needsParentheses = false →
    Reads value .operand p.symbols (p.holds value)
  | .condition c, _ => by
      rw [symbols, holds]
      exact .condition c
  | .group connective [only], bare => by
      rw [needsParentheses] at bare
      rw [symbols, holds_single]
      exact reads_operand only bare
  | .group _ [], bare => by simp [needsParentheses] at bare
  | .group _ (_ :: _ :: _), bare => by simp [needsParentheses] at bare

/-- Operands joined by a connective are read as the join of their values. -/
theorem reads_join {parts : List (List Symbol)} {values : List Bool} (connective : Connective)
    (operands : List.Forall₂ (Reads value .operand) parts values) (nonempty : parts ≠ []) :
    Reads value .alternatives (List.intercalate [.connective connective] parts)
      (connective.join values) := by
  cases operands with
  | nil => exact absurd rfl nonempty
  | cons first rest =>
      rw [Symbol.intercalate_cons]
      cases connective with
      | and => exact .one (first.single.conjunction rest)
      | or => exact first.single.one.disjunction rest

mutual

/-- The symbols of a predicate are read as its value. -/
theorem reads_symbols : (p : Predicate) → p.Grouped →
    Reads value .alternatives p.symbols (p.holds value)
  | .condition c, _ => by
      rw [symbols, holds]
      exact .one (.single (.condition c))
  | .group connective [only], grouped => by
      rw [symbols, holds_single]
      exact reads_symbols only grouped.2.1
  | .group _ [], grouped => absurd rfl grouped.1
  | .group connective (p :: q :: rest), grouped => by
      rw [symbols, holds]
      · apply reads_join connective (reads_members (p :: q :: rest) grouped.2)
        simp [memberSymbols]
      all_goals simp

/-- Members side by side are operands: what would not be one stands in parentheses. -/
theorem reads_members : (ps : List Predicate) → AllGrouped ps →
    List.Forall₂ (Reads value .operand) (memberSymbols ps) (memberValues value ps)
  | [], _ => by
      rw [memberSymbols, memberValues]
      exact .nil
  | p :: ps, grouped => by
      rw [memberSymbols, memberValues]
      refine .cons ?_ (reads_members ps grouped.2)
      split
      · exact .parentheses (reads_symbols p grouped.1)
      next bare => exact reads_operand p (by simpa using bare)

end

/-- Joining with a connective brings in no conditions. -/
theorem conditions_intercalate (connective : Connective) (parts : List (List Symbol)) :
    Symbol.conditions (List.intercalate [.connective connective] parts) =
      parts.flatMap Symbol.conditions := by
  cases parts with
  | nil => rfl
  | cons s rest =>
      rw [Symbol.intercalate_cons, Symbol.conditions_append, List.flatMap_cons]
      congr 1
      induction rest with
      | nil => rfl
      | cons t rest ih =>
          rw [List.flatMap_cons, List.flatMap_cons, Symbol.conditions_append, ih]
          rfl

mutual

/-- The symbols hold the conditions of the predicate, in order. -/
theorem conditions_symbols : (p : Predicate) → Symbol.conditions p.symbols = p.conditions
  | .condition c => by
      rw [symbols, conditions]
      rfl
  | .group _ [only] => by
      rw [symbols, conditions, conditionsOf, conditionsOf, List.append_nil]
      exact conditions_symbols only
  | .group _ [] => rfl
  | .group connective (p :: q :: rest) => by
      rw [symbols, conditions, conditions_intercalate]
      · exact conditions_memberSymbols (p :: q :: rest)
      all_goals simp

theorem conditions_memberSymbols : (ps : List Predicate) →
    (memberSymbols ps).flatMap Symbol.conditions = conditionsOf ps
  | [] => by
      rw [memberSymbols, conditionsOf]
      rfl
  | p :: ps => by
      have head := conditions_symbols p
      rw [memberSymbols, conditionsOf, List.flatMap_cons, conditions_memberSymbols ps]
      congr 1
      split
      · show Symbol.conditions (p.symbols ++ [.closing]) = _
        rw [Symbol.conditions_append, head]
        exact List.append_nil _
      · exact head

end

/-- The conditions in a predicate are built. -/
theorem Built.conditions {p : Predicate} (built : p.Built) : ∀ c ∈ p.conditions, c.Built := by
  induction built with
  | condition built =>
      intro c mem
      rw [Predicate.conditions, List.mem_singleton] at mem
      rwa [mem]
  | group _ made ih =>
      intro c mem
      obtain ⟨members, _⟩ := Group.of_make made
      rw [Group.toPredicate, Predicate.conditions, mem_conditionsOf, members] at mem
      obtain ⟨p, hp, hc⟩ := mem
      exact ih p hp c hc

end Predicate

namespace WhereClause

theorem Built.conditions {w : WhereClause} (built : w.Built) : ∀ c ∈ w.conditions, c.Built := by
  intro c mem
  rw [WhereClause.conditions, Predicate.mem_conditionsOf] at mem
  obtain ⟨p, hp, hc⟩ := mem
  exact (built p hp).conditions c hc

/-- The clause as a predicate: the AND of its members. -/
def conjunction (w : WhereClause) : Predicate := .group .and w.members

/-- After the keyword, the clause is rendered like the AND of its members. -/
theorem template?_of_members {w : WhereClause} (nonempty : w.members ≠ []) :
    w.template? = some (.text "WHERE " :: w.conjunction.template) := by
  obtain ⟨members⟩ := w
  match members with
  | [] => exact absurd rfl nonempty
  | [only] => rw [template?, conjunction, Predicate.template]
  | p :: q :: rest =>
    rw [template?, conjunction, Predicate.template]
    · rfl
    all_goals simp

/-- What is rendered of a clause is the keyword and a predicate with members. -/
theorem Built.of_mem_template? {w : WhereClause} (built : w.Built) {t : Template}
    (mem : t ∈ w.template?) :
    w.conjunction.Built ∧ t = .text "WHERE " :: w.conjunction.template := by
  by_cases none : w.members = []
  · rw [template?, none] at mem
    cases mem
  · rw [template?_of_members none, Option.mem_some_iff] at mem
    exact ⟨.ofMembers .and none built, mem.symm⟩

/--
The sequences of symbols that the text after `WHERE ` can be taken for: the conditions of the clause
in their order, with connectives and parentheses between them.
-/
def Spells (env : Environment) (w : WhereClause) (symbols : List Symbol) : Prop :=
  w.template?.map (Template.fill env) = some ("WHERE " ++ Symbol.spell env symbols) ∧
    Symbol.conditions symbols = w.conditions

theorem spells_symbols (env : Environment) {w : WhereClause} (nonempty : w.members ≠ []) :
    w.Spells env w.conjunction.symbols := by
  constructor
  · have same : w.conjunction.template.fill env = _ := Predicate.fill_template env w.conjunction
    rw [template?_of_members nonempty, Option.map_some, Template.fill_cons, same]
    rfl
  · rw [Predicate.conditions_symbols, conjunction, Predicate.conditions]
    rfl

/-- The text can be taken for one sequence of symbols only. -/
theorem spells_unique {env : Environment} {w : WhereClause} (built : w.Built)
    {s t : List Symbol} (hs : w.Spells env s) (ht : w.Spells env t) : s = t := by
  obtain ⟨textS, atomsS⟩ := hs
  obtain ⟨textT, atomsT⟩ := ht
  rw [textS, Option.some.injEq, String.append_right_inj] at textT
  apply Symbol.spell_injective ?_ (by rw [atomsS, atomsT]) textT
  intro c mem
  rw [atomsS] at mem
  exact (Built.conditions built c mem).startsWord

/--
The rendered clause means what the tree means. Its text can be taken in exactly one way for a
sequence of conditions, connectives and parentheses, and the reading of that sequence, with
parentheses before AND and AND before OR, is the conjunction of the members of the clause.
-/
theorem reads_iff_holds {w : WhereClause} (built : w.Built) (nonempty : w.members ≠ [])
    (env : Environment) (value : Condition → Bool) :
    (∃! symbols, w.Spells env symbols) ∧
      ∀ symbols, w.Spells env symbols → ∀ b,
        Reads value .alternatives symbols b ↔ b = w.holds value := by
  have spelled := spells_symbols env nonempty
  have grouped : w.conjunction.Grouped :=
    ⟨nonempty, Predicate.allGrouped_of_forall fun p mem => (built p mem).grouped⟩
  have read : Reads value .alternatives w.conjunction.symbols (w.holds value) := by
    have tree : Reads value .alternatives _ (w.conjunction.holds value) :=
      Predicate.reads_symbols w.conjunction grouped
    rwa [conjunction, Predicate.holds] at tree
  refine ⟨⟨_, spelled, fun s hs => spells_unique built hs spelled⟩, fun s hs b => ?_⟩
  rw [spells_unique built hs spelled]
  constructor
  · intro other
    exact other.unique read
  · intro same
    rwa [same]

/-- The comparison of a column with zero. -/
def isZero (column : String) : Condition :=
  ⟨.column column, .equal, .scalar (.int 0)⟩

/-- A clause with a disjunction behind a wrapper, beside a single condition. -/
def wrapped : WhereClause :=
  ⟨[.group .and [.group .or [.condition (isZero "x"), .condition (isZero "y")]],
    .condition (isZero "z")]⟩

theorem wrapped_built : wrapped.Built := by
  have condition (column : String) (dotted : Name.isDotted column = true) :
      (Predicate.condition (isZero column)).Built := by
    refine .condition ⟨.column column, .equal, .scalar (.int 0), .column _, .scalar _, ?_⟩
    simp [Condition.make, Field.check, dotted, isZero, Operand.check, Comparison.arity,
      Operand.normal, bind, Except.bind, pure, Except.pure]
  have choice : (Predicate.group .or [.condition (isZero "x"), .condition (isZero "y")]).Built := by
    apply Predicate.Built.ofMembers .or (by simp)
    intro p mem
    simp only [List.mem_cons, List.not_mem_nil, or_false] at mem
    rcases mem with rfl | rfl <;> exact condition _ rfl
  intro p mem
  simp only [wrapped, List.mem_cons, List.not_mem_nil, or_false] at mem
  rcases mem with rfl | rfl
  · apply Predicate.Built.ofMembers .and (by simp)
    intro p mem
    rwa [List.mem_singleton.mp mem]
  · exact condition "z" rfl

/-- The wrapper gets parentheses: with `x` zero and `z` not, the clause does not hold. -/
theorem reads_wrapped :
    wrapped.template?.map Template.sql = some "WHERE (x = 0 OR y = 0) AND z = 0" ∧
      wrapped.Built ∧ wrapped.members ≠ [] ∧
      (∃! symbols, wrapped.Spells .empty symbols) ∧
      ∀ symbols, wrapped.Spells .empty symbols → ∀ b,
        Reads (fun c => c.field == .column "x") .alternatives symbols b ↔ b = false := by
  have nonempty : wrapped.members ≠ [] := by simp [wrapped]
  exact ⟨by decide, wrapped_built, nonempty,
    reads_iff_holds wrapped_built nonempty .empty fun c => c.field == .column "x"⟩

end WhereClause

end RuleQuery
