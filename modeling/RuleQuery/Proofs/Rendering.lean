/-
# Rendering replaced literals

The template of a configuration has its literals in slots, so replacing the literals of the one
replaces the slots of the other and leaves every text where it is: the parentheses of a predicate,
the clauses that are there, and the order of the pieces do not depend on what a literal is. A
replacement that keeps the SQL text and the parameter of a literal is therefore not seen in the
statement.
-/

import RuleQuery.Proofs.Literals
import RuleQuery.Sql.Compile

namespace RuleQuery

open Sql (Piece Template Environment)

variable {f : Literal → Literal}

namespace Sql

/-- A piece with its literal replaced, if it has one. -/
def Piece.mapSlot (f : Literal → Literal) : Piece → Piece
  | .text s => .text s
  | .slot l => .slot (f l)

namespace Template

/-- A template with its literals replaced. -/
def mapSlots (f : Literal → Literal) (t : Template) : Template := t.map (Piece.mapSlot f)

@[simp] theorem mapSlots_nil : mapSlots f [] = [] := rfl

@[simp] theorem mapSlots_text (s : String) (t : Template) :
    mapSlots f (.text s :: t) = .text s :: t.mapSlots f := rfl

@[simp] theorem mapSlots_slot (l : Literal) (t : Template) :
    mapSlots f (.slot l :: t) = .slot (f l) :: t.mapSlots f := rfl

@[simp] theorem mapSlots_append (s t : Template) :
    mapSlots f (s ++ t) = s.mapSlots f ++ t.mapSlots f :=
  List.map_append

theorem mapSlots_joined (separator : String) (parts : List Template) :
    (joined separator parts).mapSlots f = joined separator (parts.map (mapSlots f)) := by
  cases parts with
  | nil => rfl
  | cons t rest =>
      have later : mapSlots f (rest.flatMap (.text separator :: ·)) =
          (rest.map (mapSlots f)).flatMap (.text separator :: ·) := by
        induction rest with
        | nil => rfl
        | cons u rest ih =>
            rw [List.flatMap_cons, mapSlots_append, ih]
            rfl
      rw [joined_cons, mapSlots_append, later, List.map_cons, joined_cons]

theorem mapSlots_parenthesized (t : Template) :
    (parenthesized t).mapSlots f = parenthesized (t.mapSlots f) := by
  simp [parenthesized]

end Template

end Sql

/-! ## Templates of nodes -/

open Sql.Template

theorem Call.mapSlots_templateOf (function : String) (args : List Template) :
    (templateOf function args).mapSlots f = templateOf function (args.map (mapSlots f)) := by
  simp [templateOf, mapSlots_joined]

namespace Argument

mutual

theorem template_mapLiterals : (a : Argument) →
    (a.mapLiterals f).template = a.template.mapSlots f
  | .literal _ => rfl
  | .column _ => rfl
  | .call function args => by
      rw [mapLiterals, template, template, templates_mapAll args, Call.mapSlots_templateOf]

theorem templates_mapAll : (args : List Argument) →
    templates (mapAll f args) = (templates args).map (mapSlots f)
  | [] => rfl
  | a :: args => by
      rw [mapAll, templates, templates, template_mapLiterals a, templates_mapAll args,
        List.map_cons]

end

end Argument

theorem Call.template_mapLiterals (c : Call) :
    (c.mapLiterals f).template = c.template.mapSlots f :=
  c.toArgument.template_mapLiterals

theorem Field.template_mapLiterals (field : Field) :
    (field.mapLiterals f).template = field.template.mapSlots f := by
  cases field with
  | column name => rfl
  | call c => exact c.template_mapLiterals

theorem Operand.template_mapLiterals (v : Operand) :
    (v.mapLiterals f).template = v.template.mapSlots f := by
  cases v with
  | absent => rfl
  | scalar l => rfl
  | list items =>
      have slots : (items.map f).map (fun l => [Piece.slot l]) =
          (items.map fun l => [Piece.slot l]).map (mapSlots f) := by
        rw [List.map_map, List.map_map]
        rfl
      rw [mapLiterals, template, template, mapSlots_parenthesized, mapSlots_joined, slots]
  | call c => exact c.template_mapLiterals

theorem Condition.template_mapLiterals (c : Condition) :
    (c.mapLiterals f).template = c.template.mapSlots f := by
  obtain ⟨field, op, value⟩ := c
  have left := field.template_mapLiterals (f := f)
  have right := value.template_mapLiterals (f := f)
  have plain : (field.mapLiterals f).template
        ++ .text (" " ++ op.symbol ++ " ") :: (value.mapLiterals f).template =
      mapSlots f (field.template ++ .text (" " ++ op.symbol ++ " ") :: value.template) := by
    rw [mapSlots_append, mapSlots_text, left, right]
  unfold template mapLiterals
  cases op.arity with
  | none => simp [left]
  | scalar => exact plain
  | list => exact plain
  | pair =>
      -- Two bounds are rendered by the condition itself, anything else by the value.
      cases value with
      | list items =>
          rcases items with _ | ⟨low, _ | ⟨high, _ | ⟨l, rest⟩⟩⟩
          · exact plain
          · exact plain
          · simp [left, Operand.mapLiterals]
          · exact plain
      | absent => exact plain
      | scalar l => exact plain
      | call c => exact plain

namespace Predicate

mutual

theorem needsParentheses_mapLiterals : (p : Predicate) →
    (p.mapLiterals f).needsParentheses = p.needsParentheses
  | .condition _ => rfl
  | .group _ [] => rfl
  | .group _ [only] => by
      simpa only [mapLiterals, mapAll, needsParentheses] using needsParentheses_mapLiterals only
  | .group _ (_ :: _ :: _) => rfl

end

mutual

theorem template_mapLiterals : (p : Predicate) →
    (p.mapLiterals f).template = p.template.mapSlots f
  | .condition c => by rw [mapLiterals, template, template, c.template_mapLiterals]
  | .group _ [] => rfl
  | .group _ [only] => by
      simpa only [mapLiterals, mapAll, template] using template_mapLiterals only
  | .group connective (p :: q :: ps) => by
      have members := memberTemplates_mapAll (p :: q :: ps)
      simp only [mapLiterals, mapAll, template, mapSlots_joined] at members ⊢
      rw [members]

theorem memberTemplates_mapAll : (ps : List Predicate) →
    memberTemplates (mapAll f ps) = (memberTemplates ps).map (mapSlots f)
  | [] => rfl
  | p :: ps => by
      rw [mapAll, memberTemplates, memberTemplates, needsParentheses_mapLiterals,
        template_mapLiterals p, memberTemplates_mapAll ps, List.map_cons]
      split
      · rw [mapSlots_parenthesized]
      · rfl

end

end Predicate

theorem WhereClause.template?_mapLiterals (w : WhereClause) :
    (w.mapLiterals f).template? = w.template?.map (mapSlots f) := by
  obtain ⟨members⟩ := w
  rcases members with _ | ⟨p, _ | ⟨q, ps⟩⟩
  · rfl
  · exact congrArg (fun t => some (.text "WHERE " :: t)) p.template_mapLiterals
  · have rendered := Predicate.memberTemplates_mapAll (f := f) (p :: q :: ps)
    have joint := congrArg (Template.joined " AND ") rendered
    rw [← mapSlots_joined] at joint
    exact congrArg (fun t => some (.text "WHERE " :: t)) joint

theorem SelectField.template_mapLiterals (field : SelectField) :
    (field.mapLiterals f).template = field.template.mapSlots f := by
  have selected : (field.expression.mapLiterals f).template =
      field.expression.template.mapSlots f := by
    cases field.expression with
    | raw text => rfl
    | call c => exact c.template_mapLiterals
  unfold template mapLiterals
  cases field.aliasName with
  | none => exact selected
  | some name => simp [selected]

theorem Select.template_mapLiterals (s : Select) :
    (s.mapLiterals f).template = s.template.mapSlots f := by
  have fields : (s.fields.map (SelectField.mapLiterals f)).map SelectField.template =
      (s.fields.map SelectField.template).map (mapSlots f) := by
    rw [List.map_map, List.map_map]
    apply List.map_congr_left
    intro field _
    exact field.template_mapLiterals
  rw [template, template, mapLiterals, fields, mapSlots_text, mapSlots_joined]

namespace Configuration

theorem clauses_mapLiterals (c : Configuration) :
    (c.mapLiterals f).clauses = c.clauses.map (mapSlots f) := by
  have table : c.table.template.mapSlots f = c.table.template := rfl
  have joins : (c.joins.map Join.template).map (mapSlots f) = c.joins.map Join.template := by
    rw [List.map_map]
    rfl
  have having : (c.having.map (Condition.mapLiterals f)).map Condition.template =
      (c.having.map Condition.template).map (mapSlots f) := by
    rw [List.map_map, List.map_map]
    apply List.map_congr_left
    intro condition _
    exact condition.template_mapLiterals
  have conditions : (c.conditions.mapLiterals f).template?.toList =
      c.conditions.template?.toList.map (mapSlots f) := by
    rw [WhereClause.template?_mapLiterals]
    cases c.conditions.template? <;> rfl
  have grouping (entries : List String) (keyword : String) :
      (if entries.isEmpty then []
        else [Template.ofText (keyword ++ String.intercalate ", " entries)]).map (mapSlots f) =
        if entries.isEmpty then []
        else [Template.ofText (keyword ++ String.intercalate ", " entries)] := by
    split <;> rfl
  have filter : (if c.having.isEmpty then []
        else [.text "HAVING " :: Template.joined " AND " (c.having.map Condition.template)]).map
          (mapSlots f) =
      if (c.having.map (Condition.mapLiterals f)).isEmpty then []
        else [.text "HAVING " :: Template.joined " AND "
          ((c.having.map (Condition.mapLiterals f)).map Condition.template)] := by
    rw [having]
    cases c.having with
    | nil => rfl
    | cons first rest => exact congrArg (fun t => [.text "HAVING " :: t]) (mapSlots_joined _ _)
  simp only [clauses, List.map_append, grouping, joins, filter, ← conditions]
  simp only [List.map_cons, List.map_nil, mapSlots_text, table, ← Select.template_mapLiterals]
  rfl

/-- The template of a configuration has its literals in its slots. -/
theorem template_mapLiterals (c : Configuration) (separator : Separator) :
    (c.mapLiterals f).template separator = (c.template separator).mapSlots f := by
  rw [template, template, clauses_mapLiterals, mapSlots_joined]

end Configuration

/-! ## Replacements that are not seen -/

/-- A replacement that keeps the text of a literal and the parameter it stands for. -/
structure Literal.Faithful (f : Literal → Literal) : Prop where
  sql : ∀ l, (f l).sql = l.sql
  placeholder? : ∀ l, (f l).placeholder? = l.placeholder?

namespace Sql.Template

variable (faithful : Literal.Faithful f)

include faithful

theorem fill_mapSlots (env : Environment) (t : Template) :
    (t.mapSlots f).fill env = t.fill env := by
  induction t with
  | nil => rfl
  | cons p t ih =>
      cases p with
      | text s => rw [mapSlots_text, fill_cons, fill_cons, ih]
      | slot l =>
          rw [mapSlots_slot, fill_cons, fill_cons, ih, Piece.fill, Piece.fill, literalText,
            literalText, faithful.placeholder?, faithful.sql]

theorem openNames_mapSlots (env : Environment) (t : Template) :
    (t.mapSlots f).openNames env = t.openNames env := by
  rw [mapSlots, openNames, List.filterMap_map]
  congr 1
  funext p
  cases p with
  | text s => rfl
  | slot l =>
      have same := faithful.placeholder? l
      simp only [Function.comp, Piece.mapSlot, Piece.open?, same]

end Sql.Template

end RuleQuery
