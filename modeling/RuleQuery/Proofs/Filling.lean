/-
# What a filled template shows of its parameters

The text of a template depends on the values of the parameters that stand in it, and on nothing else
of the environment; so two environments that agree there on the SQL of each value give the same
text. The converse needs care, because a longer value in one place could make up for a shorter one
in another. When only one parameter has two values it cannot: its places all grow or all shrink, and
texts that are equal in the end must have had equal pieces all along.

Of the parameters left open, each is listed once, where it is first met.
-/

import Mathlib.Algebra.Order.BigOperators.Group.List
import Mathlib.Algebra.Order.Group.Nat
import Mathlib.Data.List.Basic
import RuleQuery.Sql.Compile

namespace RuleQuery

/-- Of two ways to write pieces, one of which is nowhere longer, the same text has equal pieces. -/
theorem eq_of_flatMap_eq {α β : Type} {g h : α → List β} {as : List α}
    (shorter : ∀ a ∈ as, (g a).length ≤ (h a).length) (same : as.flatMap g = as.flatMap h) :
    ∀ a ∈ as, g a = h a := by
  induction as with
  | nil => simp
  | cons a as ih =>
      have head := shorter a (by simp)
      have tail : ∀ b ∈ as, (g b).length ≤ (h b).length := fun b mem =>
        shorter b (List.mem_cons_of_mem a mem)
      have rest : (as.flatMap g).length ≤ (as.flatMap h).length := by
        rw [List.length_flatMap, List.length_flatMap]
        exact List.sum_le_sum tail
      rw [List.flatMap_cons, List.flatMap_cons] at same
      have total := congrArg List.length same
      rw [List.length_append, List.length_append] at total
      obtain ⟨first, later⟩ := List.append_inj same (by omega)
      intro b mem
      rcases List.mem_cons.mp mem with rfl | mem
      · exact first
      · exact ih tail later b mem

section FirstSeen

variable {α : Type} [DecidableEq α]

theorem firstSeen_filter (keep : α → Bool) (as : List α) :
    firstSeen (as.filter keep) = (firstSeen as).filter keep := by
  induction as with
  | nil => rfl
  | cons a as ih =>
      cases kept : keep a with
      | true =>
          rw [List.filter_cons_of_pos kept, firstSeen, firstSeen, List.filter_cons_of_pos kept, ih,
            List.filter_comm]
      | false =>
          have dropped : ¬ keep a = true := by simp [kept]
          rw [List.filter_cons_of_neg dropped, firstSeen, List.filter_cons_of_neg dropped, ih,
            List.filter_filter]
          apply List.filter_congr
          intro b _
          by_cases same : b = a
          · simp [same, kept]
          · simp [same]

theorem firstSeen_eq_eraseDups : (as : List α) → firstSeen as = as.eraseDups
  | [] => rfl
  | a :: as => by
      have fewer := List.length_filter_le (fun b => !b == a) as
      have later : firstSeen (as.filter fun b => !b == a) = _ := firstSeen_eq_eraseDups _
      rw [firstSeen, List.eraseDups_cons, ← later, firstSeen_filter]
      congr 2
      funext b
      simp [beq_eq_decide]
termination_by as => as.length
decreasing_by simp; omega

theorem mem_firstSeen {a : α} {as : List α} : a ∈ firstSeen as ↔ a ∈ as := by
  rw [firstSeen_eq_eraseDups, List.mem_eraseDups]

theorem firstSeen_idem (as : List α) : firstSeen (firstSeen as) = firstSeen as := by
  induction as with
  | nil => rfl
  | cons a as ih =>
      simp only [firstSeen, firstSeen_filter, ih, List.filter_filter, Bool.and_self]

/-- Repeats may be dropped from the end of a list beforehand. -/
theorem firstSeen_append_firstSeen (as bs : List α) :
    firstSeen (as ++ firstSeen bs) = firstSeen (as ++ bs) := by
  induction as with
  | nil => exact firstSeen_idem bs
  | cons a as ih => rw [List.cons_append, List.cons_append, firstSeen, firstSeen, ih]

end FirstSeen

namespace Sql

variable {env env' : Environment} {name : String} {t : Template}

/-- A literal in its place depends on the value of the parameter it stands for. -/
theorem literalText_congr {l : Literal}
    (same : ∀ name, l.placeholder? = some name →
      (env name).map Literal.sql = (env' name).map Literal.sql) :
    literalText env l = literalText env' l := by
  unfold literalText
  cases parameter : l.placeholder? with
  | none => rfl
  | some name =>
      have value := same name parameter
      cases left : env name with
      | none =>
          rw [left, Option.map_none, eq_comm, Option.map_eq_none_iff] at value
          simp only [left, value]
      | some a =>
          rw [left, Option.map_some, eq_comm, Option.map_eq_some_iff] at value
          obtain ⟨b, right, sql⟩ := value
          simp only [left, right, sql]

namespace Template

/-- The names left open are the parameters in the template that have no value. -/
theorem openNames_eq_filter (env : Environment) (t : Template) :
    t.openNames env = (t.openNames .empty).filter fun name => (env name).isNone := by
  have piece (p : Piece) :
      p.open? env = (p.open? .empty).filter fun name => (env name).isNone := by
    cases p with
    | text s => rfl
    | slot l => simp [Piece.open?, Environment.empty]
  simp only [openNames, List.filter_filterMap, piece]

theorem mem_openNames :
    name ∈ t.openNames env ↔ name ∈ t.openNames .empty ∧ env name = none := by
  rw [openNames_eq_filter, List.mem_filter, Option.isNone_iff_eq_none]

/-- The parameter of a literal in a slot stands in the template. -/
theorem mem_openNames_empty {l : Literal} (slot : Piece.slot l ∈ t)
    (parameter : l.placeholder? = some name) : name ∈ t.openNames .empty := by
  refine List.mem_filterMap.mpr ⟨.slot l, slot, ?_⟩
  rw [Piece.open?, parameter]
  rfl

/-- A text depends on the values of the parameters that stand in its template. -/
theorem fill_congr (same : ∀ name ∈ t.openNames .empty,
    (env name).map Literal.sql = (env' name).map Literal.sql) : t.fill env = t.fill env' := by
  unfold fill
  congr 1
  apply List.map_congr_left
  intro p mem
  cases p with
  | text s => rfl
  | slot l =>
      exact literalText_congr fun name parameter => same name (mem_openNames_empty mem parameter)

theorem openNames_congr
    (same : ∀ name ∈ t.openNames .empty, env name = none ↔ env' name = none) :
    t.openNames env = t.openNames env' := by
  rw [openNames_eq_filter env, openNames_eq_filter env']
  apply List.filter_congr
  intro name mem
  rw [Bool.eq_iff_iff, Option.isNone_iff_eq_none, Option.isNone_iff_eq_none]
  exact same name mem

theorem toList_fill (env : Environment) (t : Template) :
    (t.fill env).toList = t.flatMap fun p => (p.fill env).toList := by
  induction t with
  | nil => rfl
  | cons p t ih => rw [fill_cons, String.toList_append, ih, List.flatMap_cons]

/-- Two values of one parameter that give the same text have the same SQL. -/
theorem sql_eq_of_fill_eq {a b : Literal} (slot : name ∈ t.openNames .empty)
    (left : env name = some a) (right : env' name = some b)
    (others : ∀ other ∈ t.openNames .empty, other ≠ name → env other = env' other)
    (same : t.fill env = t.fill env') : a.sql = b.sql := by
  have pieces : ∀ p ∈ t, p.fill env = p.fill env' ∨ (p.fill env = a.sql ∧ p.fill env' = b.sql) := by
    intro p mem
    cases p with
    | text s => exact .inl rfl
    | slot l =>
        by_cases parameter : l.placeholder? = some name
        · right
          simp only [Piece.fill, literalText, parameter, left, right, and_self]
        · left
          apply literalText_congr
          intro other named
          rw [others other (mem_openNames_empty mem named)]
          rintro rfl
          exact parameter named
  obtain ⟨p, mem, named⟩ := List.mem_filterMap.mp slot
  have filled : p.fill env = a.sql ∧ p.fill env' = b.sql := by
    cases p with
    | text s => cases named
    | slot l =>
        have parameter := (Option.filter_eq_some_iff.mp named).1
        simp only [Piece.fill, literalText, parameter, left, right, and_self]
  have chars : (t.flatMap fun p => (p.fill env).toList) =
      t.flatMap fun p => (p.fill env').toList := by
    rw [← toList_fill, ← toList_fill, same]
  have equal : (p.fill env).toList = (p.fill env').toList := by
    rcases Nat.le_total a.sql.toList.length b.sql.toList.length with shorter | longer
    · apply eq_of_flatMap_eq (fun q inside => ?_) chars p mem
      rcases pieces q inside with equal | ⟨first, second⟩
      · exact Nat.le_of_eq (congrArg (·.toList.length) equal)
      · rw [first, second]
        exact shorter
    · symm
      apply eq_of_flatMap_eq (fun q inside => ?_) chars.symm p mem
      rcases pieces q inside with equal | ⟨first, second⟩
      · exact Nat.le_of_eq (congrArg (·.toList.length) equal.symm)
      · rw [first, second]
        exact longer
  rwa [String.toList_inj, filled.1, filled.2] at equal

/-- A text between the parts leaves the parameters of the parts. -/
theorem openNames_joined (separator : String) (parts : List Template) :
    openNames env (joined separator parts) = parts.flatMap (openNames env) := by
  cases parts with
  | nil => rfl
  | cons t rest =>
      have later : openNames env (rest.flatMap (.text separator :: ·)) =
          rest.flatMap (openNames env) := by
        induction rest with
        | nil => rfl
        | cons u rest ih =>
            rw [List.flatMap_cons, openNames_append, ih, List.flatMap_cons]
            rfl
      rw [joined_cons, openNames_append, later, List.flatMap_cons]

end Template

end Sql

/-- The parameters that stand in the statement of a configuration, with repeats, in order. -/
def Configuration.slotNames (c : Configuration) : List String :=
  c.clauses.flatMap (Sql.Template.openNames .empty)

/-- They do not depend on how the clauses are separated. -/
theorem Configuration.openNames_template (c : Configuration) (separator : Separator) :
    (c.template separator).openNames .empty = c.slotNames :=
  Sql.Template.openNames_joined separator.text c.clauses

end RuleQuery
