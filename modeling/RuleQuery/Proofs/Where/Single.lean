/-
# Groups with a single member

A group with a single member can be replaced by that member, wherever it stands in the WHERE clause
and whatever its connective, and nothing changes: not the check, not the placeholders, not what is
compiled. The conditions of a clause are found through any number of groups. What is rendered is
that of the normal form, which has no group with a single member to begin with; so is the question
whether a member needs parentheses.

What has been built can also be built without such groups.
-/

import RuleQuery.Proofs.Where.Normal
import RuleQuery.Sql.Compile

namespace RuleQuery

namespace Predicate

mutual

/-- A predicate with every group of a single member replaced by that member. -/
def collapsed : Predicate → Predicate
  | .condition c => .condition c
  | .group _ [only] => only.collapsed
  | .group connective members => .group connective (collapsedAll members)

def collapsedAll : List Predicate → List Predicate
  | [] => []
  | p :: ps => p.collapsed :: collapsedAll ps

end

theorem collapsedAll_eq_map (ps : List Predicate) : collapsedAll ps = ps.map collapsed := by
  induction ps with
  | nil => rw [collapsedAll, List.map_nil]
  | cons p ps ih => rw [collapsedAll, ih, List.map_cons]

/-- No group in the predicate has a single member. -/
inductive Collapsed : Predicate → Prop
  | condition (c : Condition) : Collapsed (.condition c)
  | group {connective : Connective} {members : List Predicate} (several : members.length ≠ 1)
      (each : ∀ p ∈ members, Collapsed p) : Collapsed (.group connective members)

mutual

theorem collapsed_collapsed : (p : Predicate) → p.collapsed.Collapsed
  | .condition c => .condition c
  | .group _ [] => .group (by simp [collapsedAll]) nofun
  | .group _ [only] => by
      rw [collapsed]
      exact collapsed_collapsed only
  | .group _ (p :: q :: rest) => by
      rw [collapsed]
      · exact .group (by simp [collapsedAll]) (collapsed_collapsedAll (p :: q :: rest))
      · simp

theorem collapsed_collapsedAll : (ps : List Predicate) → ∀ p ∈ collapsedAll ps, p.Collapsed
  | [] => nofun
  | p :: ps => List.forall_mem_cons.mpr ⟨collapsed_collapsed p, collapsed_collapsedAll ps⟩

end

mutual

/-- The conditions stay, in their order. -/
theorem conditions_collapsed : (p : Predicate) → p.collapsed.conditions = p.conditions
  | .condition _ => rfl
  | .group _ [] => rfl
  | .group _ [only] => by
      rw [collapsed, conditions, conditionsOf, conditionsOf, List.append_nil]
      exact conditions_collapsed only
  | .group _ (p :: q :: rest) => by
      rw [collapsed]
      · exact conditionsOf_collapsedAll (p :: q :: rest)
      · simp

theorem conditionsOf_collapsedAll : (ps : List Predicate) →
    conditionsOf (collapsedAll ps) = conditionsOf ps
  | [] => rfl
  | p :: ps => by
      rw [collapsedAll, conditionsOf, conditionsOf, conditions_collapsed p,
        conditionsOf_collapsedAll ps]

end

/-- A group has the normal form of the group of collapsed members, if each member has. -/
theorem normal_group_collapsedAll (connective : Connective) {ps : List Predicate}
    (same : normalAll (collapsedAll ps) = normalAll ps) :
    (group connective (collapsedAll ps)).normal = (group connective ps).normal := by
  rcases ps with _ | ⟨p, _ | ⟨q, rest⟩⟩
  · rfl
  · rw [collapsedAll, collapsedAll, normal, normal]
    simpa [collapsedAll, normalAll] using same
  · rw [collapsedAll, collapsedAll] at same ⊢
    rw [normal, normal, same] <;> simp

mutual

/-- The normal form has no such groups, and is the same with them and without. -/
theorem normal_collapsed : (p : Predicate) → p.collapsed.normal = p.normal
  | .condition _ => rfl
  | .group _ [] => rfl
  | .group _ [only] => by
      rw [collapsed, normal]
      exact normal_collapsed only
  | .group _ (p :: q :: rest) => by
      rw [collapsed]
      · exact normal_group_collapsedAll _ (normalAll_collapsedAll (p :: q :: rest))
      · simp

theorem normalAll_collapsedAll : (ps : List Predicate) →
    normalAll (collapsedAll ps) = normalAll ps
  | [] => rfl
  | p :: ps => by
      rw [collapsedAll, normalAll, normalAll, normal_collapsed p, normalAll_collapsedAll ps]

end

theorem Built.collapsed {p : Predicate} (built : p.Built) : p.collapsed.Built := by
  induction built with
  | condition built => exact .condition built
  | @group members connective g _ made ih =>
      obtain ⟨same, nonempty⟩ := Group.of_make made
      rw [Group.toPredicate, same]
      rcases members with _ | ⟨only, _ | ⟨q, rest⟩⟩
      · exact absurd rfl nonempty
      · rw [Predicate.collapsed]
        exact ih only (by simp)
      · have parts : ∀ p ∈ collapsedAll (only :: q :: rest), p.Built := by
          rw [collapsedAll_eq_map]
          exact List.forall_mem_map.mpr ih
        rw [Predicate.collapsed]
        · exact Built.ofMembers g.connective (by simp [collapsedAll]) parts
        · simp

end Predicate

namespace WhereClause

/-- The clause without groups of a single member. -/
def collapsed (w : WhereClause) : WhereClause := ⟨Predicate.collapsedAll w.members⟩

theorem conditions_collapsed (w : WhereClause) : w.collapsed.conditions = w.conditions :=
  Predicate.conditionsOf_collapsedAll w.members

theorem template?_collapsed (w : WhereClause) : w.collapsed.template? = w.template? := by
  by_cases empty : w.members = []
  · rw [collapsed, template?, template?, empty]
    rfl
  · have filled : w.collapsed.members ≠ [] := by
      rw [collapsed, Predicate.collapsedAll_eq_map]
      simpa using empty
    have same : w.collapsed.conjunction.normal = w.conjunction.normal :=
      Predicate.normal_group_collapsedAll .and (Predicate.normalAll_collapsedAll w.members)
    rw [template?_of_members filled, template?_of_members empty,
      ← Predicate.template_normal w.collapsed.conjunction, same, Predicate.template_normal]

theorem Built.collapsed {w : WhereClause} (built : w.Built) : w.collapsed.Built := by
  intro p mem
  rw [WhereClause.collapsed, Predicate.collapsedAll_eq_map] at mem
  obtain ⟨q, member, rfl⟩ := List.mem_map.mp mem
  exact (built q member).collapsed

end WhereClause

namespace Configuration

/-- The configuration without groups of a single member in its WHERE clause. -/
def collapsed (c : Configuration) : Configuration := { c with conditions := c.conditions.collapsed }

theorem Built.collapsed {c : Configuration} (built : c.Built) : c.collapsed.Built := by
  have parts := built.parts
  exact Parts.built ⟨parts.select, parts.table, parts.joins, parts.conditions.collapsed,
    parts.having⟩

theorem placeholders_collapsed (c : Configuration) : c.collapsed.placeholders = c.placeholders := by
  rw [placeholders, placeholders, collapsed, WhereClause.conditions_collapsed]

theorem validate_collapsed (c : Configuration) : c.collapsed.validate = c.validate := by
  have clauses : c.collapsed.clauseFault? = c.clauseFault? := by
    rw [clauseFault?, clauseFault?, collapsed, WhereClause.conditions_collapsed]
  have references : c.collapsed.referenceFault? = c.referenceFault? := by
    rw [referenceFault?, referenceFault?, placeholders_collapsed]
    rfl
  rw [validate, validate, clauses, references]

theorem template_collapsed (c : Configuration) (separator : Separator) :
    c.collapsed.template separator = c.template separator := by
  rw [template, template, clauses, clauses, collapsed, WhereClause.template?_collapsed]

/--
A group with a single member makes no difference: without any such group in its WHERE clause, a
configuration has the same check, the same placeholders and the same statement, whatever is bound.
-/
theorem transparent_collapsed (c : Configuration) :
    (∀ p ∈ c.collapsed.conditions.members, p.Collapsed) ∧
      c.collapsed.validate = c.validate ∧ c.collapsed.placeholders = c.placeholders ∧
      ∀ (settings : Settings) (bindings : Bindings),
        c.collapsed.compile settings bindings = c.compile settings bindings := by
  refine ⟨Predicate.collapsed_collapsedAll c.conditions.members, c.validate_collapsed,
    c.placeholders_collapsed, ?_⟩
  intro settings bindings
  rw [compile, compile, validate_collapsed, template_collapsed]
  rfl

end Configuration

end RuleQuery
