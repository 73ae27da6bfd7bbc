/-
# The normal form of a WHERE clause

Trees that differ in little more than their making are rendered alike: a group with a single member
as that member, a clause of several members as the group in which all of them have to hold, and a
function in upper case, however it was spelled. The normal form undoes these differences. It is
rendered to the same template, and a clause that is built has a normal form whose groups all have
two members or more.
-/

import RuleQuery.Proofs.Where.Precedence

namespace RuleQuery

open Sql (Template)

/-! ## Functions in upper case -/

namespace Argument

mutual

/-- An argument with its functions in upper case. -/
def raised : Argument → Argument
  | .literal l => .literal l
  | .column name => .column name
  | .call function args => .call (Text.upperAscii function) (raisedAll args)

def raisedAll : List Argument → List Argument
  | [] => []
  | a :: as => a.raised :: raisedAll as

end

theorem raisedAll_eq_map (args : List Argument) : raisedAll args = args.map raised := by
  induction args with
  | nil => rw [raisedAll, List.map_nil]
  | cons a args ih => rw [raisedAll, ih, List.map_cons]

mutual

/-- Functions are rendered in upper case in any case. -/
theorem template_raised : (a : Argument) → a.raised.template = a.template
  | .literal _ => rfl
  | .column _ => rfl
  | .call function args => by
      rw [raised, template, template, templates_raisedAll args, Call.templateOf, Call.templateOf,
        Name.upperAscii_upperAscii]

theorem templates_raisedAll : (args : List Argument) → templates (raisedAll args) = templates args
  | [] => rfl
  | a :: args => by
      rw [raisedAll, templates, templates, template_raised a, templates_raisedAll args]

end

end Argument

def Call.raised (c : Call) : Call :=
  ⟨Text.upperAscii c.function, Argument.raisedAll c.arguments⟩

theorem Call.template_raised (c : Call) : c.raised.template = c.template :=
  c.toArgument.template_raised

def Field.raised : Field → Field
  | .column name => .column name
  | .call c => .call c.raised

theorem Field.template_raised (f : Field) : f.raised.template = f.template := by
  cases f with
  | column name => rfl
  | call c => exact c.template_raised

def Operand.raised : Operand → Operand
  | .call c => .call c.raised
  | v => v

theorem Operand.template_raised (v : Operand) : v.raised.template = v.template := by
  cases v with
  | call c => exact c.template_raised
  | _ => rfl

/-- A condition with its functions in upper case. -/
def Condition.raised (c : Condition) : Condition :=
  ⟨c.field.raised, c.op, c.value.raised⟩

theorem Condition.template_raised (c : Condition) : c.raised.template = c.template := by
  obtain ⟨field, op, value⟩ := c
  have left := field.template_raised
  have right := value.template_raised
  unfold template raised
  cases value with
  | call call =>
      simp only [Operand.raised] at right ⊢
      cases op.arity <;> simp only [left, right]
  | _ => simp only [Operand.raised, left]

/-! ## Groups without single members -/

namespace Predicate

mutual

/-- A predicate with its functions in upper case, and with every single member for its group. -/
def normal : Predicate → Predicate
  | .condition c => .condition c.raised
  | .group _ [only] => only.normal
  | .group connective members => .group connective (normalAll members)

def normalAll : List Predicate → List Predicate
  | [] => []
  | p :: ps => p.normal :: normalAll ps

end

theorem normalAll_eq_map (ps : List Predicate) : normalAll ps = ps.map normal := by
  induction ps with
  | nil => rw [normalAll, List.map_nil]
  | cons p ps ih => rw [normalAll, ih, List.map_cons]

theorem needsParentheses_normal : (p : Predicate) → p.normal.needsParentheses = p.needsParentheses
  | .group _ [only] => by
      rw [normal, needsParentheses]
      exact needsParentheses_normal only
  | .group _ [] => rfl
  | .group _ (_ :: _ :: _) => rfl
  | .condition _ => rfl

mutual

/-- A predicate is rendered like its normal form. -/
theorem template_normal : (p : Predicate) → p.normal.template = p.template
  | .group _ [only] => by
      rw [normal, template]
      exact template_normal only
  | .group _ [] => rfl
  | .group connective (p :: q :: rest) => by
      have members := memberTemplates_normalAll (p :: q :: rest)
      simp only [normal, normalAll, template] at members ⊢
      rw [members]
  | .condition c => by rw [normal, template, template, c.template_raised]

theorem memberTemplates_normalAll : (ps : List Predicate) →
    memberTemplates (normalAll ps) = memberTemplates ps
  | [] => rfl
  | p :: ps => by
      rw [normalAll, memberTemplates, memberTemplates, needsParentheses_normal, template_normal p,
        memberTemplates_normalAll ps]

end

/-- A predicate of conditions with a property, every group of which has two members or more. -/
inductive Branched (P : Condition → Prop) : Predicate → Prop
  | condition {c : Condition} (holds : P c) : Branched P (.condition c)
  | group {connective : Connective} {p q : Predicate} {rest : List Predicate}
      (members : ∀ r ∈ p :: q :: rest, Branched P r) :
      Branched P (.group connective (p :: q :: rest))

/-- The normal form of a predicate that is built has no group with less than two members. -/
theorem Built.branched_normal {P : Condition → Prop} {p : Predicate} (built : p.Built) :
    (∀ c ∈ p.conditions, P c.raised) → p.normal.Branched P := by
  induction built with
  | condition _ =>
      intro each
      rw [normal]
      exact .condition (each _ (by simp [Predicate.conditions]))
  | @group members connective g _ made ih =>
      obtain ⟨same, nonempty⟩ := Group.of_make made
      intro each
      rw [Group.toPredicate, same] at each ⊢
      have parts : ∀ p ∈ members, p.normal.Branched P := fun p mem => ih p mem fun c inside =>
        each c (by
          rw [Predicate.conditions, mem_conditionsOf]
          exact ⟨p, mem, inside⟩)
      rcases members with _ | ⟨only, _ | ⟨q, rest⟩⟩
      · exact absurd rfl nonempty
      · rw [normal]
        exact parts only (by simp)
      · have every : ∀ r ∈ normalAll (only :: q :: rest), r.Branched P := by
          rw [normalAll_eq_map]
          exact List.forall_mem_map.mpr parts
        rw [normal]
        · exact .group every
        all_goals simp

end Predicate

/-- The normal form of the AND of its members. -/
def WhereClause.normal (w : WhereClause) : Predicate := w.conjunction.normal

end RuleQuery
