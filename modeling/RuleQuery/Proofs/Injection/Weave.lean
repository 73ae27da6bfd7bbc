/-
# What a statement is woven from

A template is woven when it is put together in the few ways in which the clauses do it: fixed text
may stand in front of anything, a literal has its place, and what stands between two parts is fixed
text that begins with a blank, a comma or a closing parenthesis. Texts that the source writes as SQL
are the only ones that may hold other characters, and they too are always followed in that way. So a
property of whole statements needs a proof for each of these ways, and none for each type of node.

That nothing else is done with templates is shown here once for every node. What may be asked of the
texts that are SQL as they stand is left open.
-/

import RuleQuery.Proofs.Injection.Fragment
import RuleQuery.Proofs.Where.Precedence
import RuleQuery.Sql.Compile

namespace RuleQuery

open Sql (Environment Template)

/-- The characters of a template around a text in it. -/
theorem Sql.Template.toList_fill_text (env : Environment) (t : Template) (s : String)
    (u : Template) :
    (fill env (t ++ .text s :: u)).toList =
      (fill env t).toList ++ (s.toList ++ (fill env u).toList) := by
  simp [Piece.fill]

/-- Fixed text that may stand after a fragment and before anything. -/
structure IsSeam (s : String) : Prop where
  fixed : Fixed s.toList
  nonempty : s ≠ ""
  closes : Closes s.toList

instance (s : String) : Decidable (IsSeam s) :=
  decidable_of_iff (Fixed s.toList ∧ s ≠ "" ∧ Closes s.toList)
    ⟨fun ⟨fixed, nonempty, closes⟩ => ⟨fixed, nonempty, closes⟩,
      fun ⟨fixed, nonempty, closes⟩ => ⟨fixed, nonempty, closes⟩⟩

/-- A seam closes what is in front of it, whatever comes after. -/
theorem IsSeam.closes_append {s : String} (seam : IsSeam s) (rest : List Char) :
    Closes (s.toList ++ rest) := by
  have closes := seam.closes
  cases chars : s.toList with
  | nil => exact absurd (String.toList_eq_nil_iff.mp chars) seam.nonempty
  | cons c cs => rwa [chars] at closes

/-- A text of fixed characters and of raw fragments that are followed by something harmless. -/
inductive Phrase (Raw : List Char → Prop) : List Char → Prop
  | nil : Phrase Raw []
  | fixed {c : Char} {cs : List Char} (fixed : isFixed c = true) (rest : Phrase Raw cs) :
      Phrase Raw (c :: cs)
  | raw {s cs : List Char} (raw : Raw s) (closes : Closes cs) (rest : Phrase Raw cs) :
      Phrase Raw (s ++ cs)

/-- The ways in which templates are put together. -/
inductive Sql.Template.Woven (Raw : List Char → Prop) : Template → Prop
  | nil : Woven Raw []
  | phrase {s : String} (phrase : Phrase Raw s.toList) : Woven Raw (ofText s)
  | fixed {s : String} {t : Template} (fixed : Fixed s.toList) (rest : Woven Raw t) :
      Woven Raw (.text s :: t)
  | slot (l : Literal) : Woven Raw [.slot l]
  | seam {s : String} {t u : Template} (first : Woven Raw t) (seam : IsSeam s)
      (second : Woven Raw u) : Woven Raw (t ++ .text s :: u)

variable {Raw : List Char → Prop}

namespace Phrase

theorem of_fixed_append {s t : List Char} (fixed : Fixed s) (rest : Phrase Raw t) :
    Phrase Raw (s ++ t) := by
  induction s with
  | nil => exact rest
  | cons c s ih => exact .fixed (fixed c (by simp)) (ih fun d mem => fixed d (by simp [mem]))

theorem of_fixed {s : List Char} (fixed : Fixed s) : Phrase Raw s := by
  have empty : Phrase Raw [] := .nil
  simpa using of_fixed_append fixed empty

theorem of_raw {s : List Char} (raw : Raw s) : Phrase Raw s := by
  simpa using Phrase.raw raw .nil .nil

/-- Raw entries with commas between them. -/
theorem intercalate {entries : List String} (raw : ∀ s ∈ entries, Raw s.toList) :
    Phrase Raw (String.intercalate ", " entries).toList := by
  induction entries with
  | nil => exact .nil
  | cons s entries ih =>
      have tail := ih fun t mem => raw t (List.mem_cons_of_mem s mem)
      cases entries with
      | nil => simpa using of_raw (raw s (by simp))
      | cons t entries =>
          rw [String.intercalate_cons_cons, String.toList_append, String.toList_append,
            List.append_assoc]
          have later := of_fixed_append (s := [',', ' ']) (by decide) tail
          exact .raw (raw s (by simp)) rfl later

end Phrase

namespace Sql.Template.Woven

theorem text {s : String} (fixed : Fixed s.toList) : Woven Raw (ofText s) :=
  .phrase (.of_fixed fixed)

/-- Woven templates joined by a seam. -/
theorem joined {separator : String} {parts : List Template} (isSeam : IsSeam separator)
    (woven : ∀ t ∈ parts, Woven Raw t) : Woven Raw (Template.joined separator parts) := by
  match parts with
  | [] => exact nil
  | t :: rest =>
    rw [joined_cons]
    induction rest generalizing t with
    | nil => simpa using woven t (by simp)
    | cons u rest ih =>
        have tail : Woven Raw (u ++ rest.flatMap (.text separator :: ·)) :=
          ih u fun v mem => woven v (List.mem_cons_of_mem t mem)
        rw [List.flatMap_cons]
        exact seam (woven t (by simp)) isSeam tail

theorem parenthesized {t : Template} (woven : Woven Raw t) :
    Woven Raw (Template.parenthesized t) :=
  fixed (by decide) (seam woven (by decide) nil)

end Sql.Template.Woven

/-! ## The nodes -/

theorem Comparison.isSeam_symbol (op : Comparison) :
    IsSeam (" " ++ op.symbol) ∧ IsSeam (" " ++ op.symbol ++ " ") := by
  cases op <;> decide

theorem Connective.isSeam_symbol (connective : Connective) :
    IsSeam (" " ++ connective.symbol ++ " ") := by
  cases connective <;> decide

theorem Separator.isSeam_text (separator : Separator) : IsSeam separator.text := by
  cases separator <;> decide

theorem Call.woven_templateOf {function : String} {args : List Template}
    (identifier : Name.isIdentifier function = true) (parts : ∀ t ∈ args, t.Woven Raw) :
    (Call.templateOf function args).Woven Raw := by
  have inside : (Template.joined ", " args).Woven Raw := .joined (by decide) parts
  have opening : Fixed (if Text.upperAscii function = "COUNT_DISTINCT" then "COUNT(DISTINCT "
      else Text.upperAscii function ++ "(").toList := by
    split
    · decide
    · rw [String.toList_append]
      exact (fixed_of_isIdentifier (Name.isIdentifier_upperAscii identifier)).append (by decide)
  exact .fixed opening (.seam inside (by decide) .nil)

theorem Argument.mem_templates {t : Template} {args : List Argument} :
    t ∈ templates args ↔ ∃ a ∈ args, a.template = t := by
  induction args with
  | nil => simp [templates]
  | cons a args ih => simp [templates, ih, eq_comm]

/-- An argument is woven in a call, where its column has been checked. -/
theorem Argument.Built.woven {a : Argument} (built : a.Built) :
    (∀ name, a = .column name → Name.isColumnReference name = true) → a.template.Woven Raw := by
  induction built with
  | literal l =>
      intro _
      exact .slot l
  | column name =>
      intro checked
      exact .text (fixed_of_isColumnReference (checked name rfl))
  | call _ made ih =>
      intro _
      obtain ⟨rfl, identifier, _, columns⟩ := Call.of_make made
      apply Call.woven_templateOf identifier
      intro t mem
      obtain ⟨a, argument, rfl⟩ := Argument.mem_templates.mp mem
      apply ih a argument
      rintro name rfl
      exact Call.isColumnReference_of_badColumn? columns argument

theorem Call.Built.woven {c : Call} (built : c.Built) : c.template.Woven Raw := by
  obtain ⟨function, args, parts, made⟩ := built
  exact Argument.Built.woven (.call parts made) fun _ column => by cases column

theorem Field.Built.woven {f : Field} (built : f.Built) (checked : f.check = .ok ()) :
    f.template.Woven Raw := by
  cases built with
  | column name => exact .text (fixed_of_isDotted (Field.isDotted_of_check checked))
  | call built => exact built.woven

theorem Operand.Built.woven {v : Operand} (built : v.Built) : v.template.Woven Raw := by
  cases built with
  | absent => exact .text (by decide)
  | scalar l => exact .slot l
  | list items =>
      apply Template.Woven.parenthesized
      apply Template.Woven.joined (by decide)
      intro t mem
      obtain ⟨l, _, rfl⟩ := List.mem_map.mp mem
      exact .slot l
  | call built => exact built.woven

theorem Condition.Built.woven {c : Condition} (built : c.Built) : c.template.Woven Raw := by
  obtain ⟨field, op, value, fieldBuilt, valueBuilt, made⟩ := built
  obtain ⟨rfl, checked, _⟩ := Condition.of_make made
  have left : field.template.Woven Raw := fieldBuilt.woven checked
  unfold Condition.template
  split
  · exact .seam left op.isSeam_symbol.1 .nil
  next low high _ _ =>
    have bounds : Template.Woven Raw ([.slot low] ++ .text " AND " :: [.slot high]) :=
      .seam (.slot low) (by decide) (.slot high)
    exact .seam left (by decide) bounds
  · exact .seam left op.isSeam_symbol.2 valueBuilt.normal.woven

theorem Predicate.woven_memberTemplates {ps : List Predicate}
    (h : ∀ p ∈ ps, p.template.Woven Raw) : ∀ t ∈ memberTemplates ps, t.Woven Raw := by
  induction ps with
  | nil => simp [memberTemplates]
  | cons p ps ih =>
      intro t mem
      rw [memberTemplates] at mem
      rcases List.mem_cons.mp mem with rfl | later
      · split
        · exact .parenthesized (h p (by simp))
        · exact h p (by simp)
      · exact ih (fun q hq => h q (List.mem_cons_of_mem p hq)) t later

theorem Predicate.Built.woven {p : Predicate} (built : p.Built) : p.template.Woven Raw := by
  induction built with
  | condition built =>
      rw [Predicate.template]
      exact built.woven
  | @group members connective g _ made ih =>
      obtain ⟨same, nonempty⟩ := Group.of_make made
      rw [Group.toPredicate, same]
      rcases members with _ | ⟨only, _ | ⟨q, rest⟩⟩
      · exact absurd rfl nonempty
      · rw [Predicate.template]
        exact ih only (by simp)
      · rw [Predicate.template]
        · exact .joined g.connective.isSeam_symbol (Predicate.woven_memberTemplates ih)
        all_goals simp

theorem WhereClause.Built.woven {w : WhereClause} (built : w.Built) :
    ∀ t ∈ w.template?, t.Woven Raw := by
  intro t mem
  obtain ⟨whole, rfl⟩ := built.of_mem_template? mem
  exact .fixed (by decide) whole.woven

/-- A table with an alias of its own, however the two are kept apart. -/
theorem fixed_table {name between aliasName : String} (dotted : checkTableName name = .ok ())
    (checked : checkAlias (some aliasName) = .ok ()) (fixed : Fixed between.toList) :
    Fixed (name ++ between ++ aliasName).toList := by
  rw [String.toList_append, String.toList_append]
  have tableFixed := fixed_of_isDotted (isDotted_of_checkTableName dotted)
  have aliasFixed := fixed_of_isIdentifier (isIdentifier_of_checkAlias checked)
  exact (tableFixed.append fixed).append aliasFixed

theorem TableRef.Built.woven {t : TableRef} (built : t.Built) : t.template.Woven Raw := by
  obtain ⟨name, aliasName, made⟩ := built
  obtain ⟨rfl, dotted, checked⟩ := TableRef.of_make made
  apply Template.Woven.text
  cases aliasName with
  | none => exact fixed_of_isDotted (isDotted_of_checkTableName dotted)
  | some a => exact fixed_table dotted checked (by decide)

/-- Of a join, the condition is SQL as it stands. -/
theorem Join.Built.woven {j : Join} (built : j.Built) (raw : Raw j.condition.toList) :
    j.template.Woven Raw := by
  obtain ⟨kind, table, aliasName, condition, made, useAs, making, rfl⟩ := built
  obtain ⟨rfl, dotted, checked, _⟩ := Join.of_make making
  have opening : Fixed (kind.symbol ++ " JOIN ").toList := by
    cases kind <;> decide
  have whole {shown : String} (fixed : Fixed shown.toList) :
      (Template.ofText (kind.symbol ++ " JOIN " ++ shown ++ " ON " ++ condition)).Woven Raw := by
    apply Template.Woven.phrase
    rw [String.toList_append, String.toList_append, String.toList_append]
    exact .of_fixed_append ((opening.append fixed).append (by decide)) (.of_raw raw)
  cases aliasName with
  | none => exact whole (fixed_of_isDotted (isDotted_of_checkTableName dotted))
  | some a =>
      have between : Fixed (if useAs then " AS " else " ").toList := by
        cases useAs <;> decide
      exact whole (fixed_table dotted checked between)

/-- An alias of a selected field. -/
theorem isSeam_alias {name : String} (identifier : Name.isIdentifier name = true) :
    IsSeam (" AS " ++ name) where
  fixed := by
    rw [String.toList_append]
    exact Fixed.append (by decide) (fixed_of_isIdentifier identifier)
  nonempty := by simp [String.append_eq_empty_iff]
  closes := by simp [Closes, isCloser]

theorem SelectField.Built.woven {f : SelectField} (built : f.Built)
    (raw : ∀ text, f.expression = .raw text → Raw text.toList) : f.template.Woven Raw := by
  obtain ⟨expression, aliasName, selected, made⟩ := built
  obtain ⟨rfl, checked⟩ := SelectField.of_make made
  have shown : expression.template.Woven Raw := by
    cases selected with
    | raw text => exact .phrase (.of_raw (raw text rfl))
    | call built => exact built.woven
  unfold SelectField.template
  cases aliasName with
  | none => exact shown
  | some name => exact .seam shown (isSeam_alias (isIdentifier_of_checkAlias checked)) .nil

theorem Select.Built.woven {s : Select} (built : s.Built)
    (raw : ∀ f ∈ s.fields, ∀ text, f.expression = .raw text → Raw text.toList) :
    s.template.Woven Raw := by
  obtain ⟨fields, fieldBuilt, made⟩ := built
  obtain ⟨rfl, _⟩ := Select.of_make made
  apply Template.Woven.fixed (by decide)
  apply Template.Woven.joined (by decide)
  intro t mem
  obtain ⟨f, field, rfl⟩ := List.mem_map.mp mem
  exact (fieldBuilt f field).woven (raw f field)

/-- A keyword and entries that are SQL as they stand, with commas between them. -/
theorem woven_entries {keyword : String} {entries : List String} (fixed : Fixed keyword.toList)
    (raw : ∀ s ∈ entries, Raw s.toList) :
    (Template.ofText (keyword ++ String.intercalate ", " entries)).Woven Raw := by
  apply Template.Woven.phrase
  rw [String.toList_append]
  exact .of_fixed_append fixed (.intercalate raw)

/-! ## The statement -/

/-- The text of a selected field that is SQL as it stands. -/
def Selected.rawText? : Selected → Option String
  | .raw text => some text
  | .call _ => none

namespace Configuration

/-- The texts of a configuration that go into the statement as SQL. -/
def rawTexts (c : Configuration) : List String :=
  c.select.fields.filterMap (·.expression.rawText?) ++ c.joins.map Join.condition
    ++ c.groupBy ++ c.orderBy

variable {c : Configuration}

/-- The four places where a configuration holds SQL as it stands. -/
theorem mem_rawTexts {s : String} :
    s ∈ c.rawTexts ↔ (∃ f ∈ c.select.fields, f.expression.rawText? = some s) ∨
      (∃ j ∈ c.joins, j.condition = s) ∨ s ∈ c.groupBy ∨ s ∈ c.orderBy := by
  simp [rawTexts]

/-- Every clause of a statement is woven from the texts that are SQL as they stand. -/
theorem woven_clauses (parts : c.Parts) (raw : ∀ s ∈ c.rawTexts, Raw s.toList) :
    ∀ t ∈ c.clauses, t.Woven Raw := by
  have select : c.select.template.Woven Raw := by
    apply parts.select.woven
    intro f field text same
    exact raw text (mem_rawTexts.mpr (.inl ⟨f, field, by rw [same, Selected.rawText?]⟩))
  have joins : ∀ t ∈ c.joins.map Join.template, t.Woven Raw := by
    intro t mem
    obtain ⟨j, joined, rfl⟩ := List.mem_map.mp mem
    exact (parts.joins j joined).woven (raw _ (mem_rawTexts.mpr (.inr (.inl ⟨j, joined, rfl⟩))))
  have grouping : (Template.ofText ("GROUP BY " ++ String.intercalate ", " c.groupBy)).Woven Raw :=
    woven_entries (by decide) fun s mem => raw s (mem_rawTexts.mpr (.inr (.inr (.inl mem))))
  have ordering : (Template.ofText ("ORDER BY " ++ String.intercalate ", " c.orderBy)).Woven Raw :=
    woven_entries (by decide) fun s mem => raw s (mem_rawTexts.mpr (.inr (.inr (.inr mem))))
  have having : Template.Woven Raw
      (.text "HAVING " :: Template.joined " AND " (c.having.map Condition.template)) := by
    apply Template.Woven.fixed (by decide)
    apply Template.Woven.joined (by decide)
    intro t mem
    obtain ⟨condition, member, rfl⟩ := List.mem_map.mp mem
    exact (parts.having condition member).woven
  have table : Template.Woven Raw (.text "FROM " :: c.table.template) :=
    .fixed (by decide) parts.table.woven
  intro t mem
  simp only [clauses, List.mem_append, List.mem_cons, List.not_mem_nil, or_false,
    Option.mem_toList] at mem
  rcases mem with (((((rfl | rfl) | mem) | mem) | mem) | mem) | mem
  · exact select
  · exact table
  · exact joins t mem
  · exact parts.conditions.woven t mem
  · split at mem
    · cases mem
    · rwa [List.mem_singleton.mp mem]
  · split at mem
    · cases mem
    · rwa [List.mem_singleton.mp mem]
  · split at mem
    · cases mem
    · rwa [List.mem_singleton.mp mem]

/-- The clauses of a statement are woven together by their separator. -/
theorem woven_template (parts : c.Parts) (raw : ∀ s ∈ c.rawTexts, Raw s.toList)
    (separator : Separator) : (c.template separator).Woven Raw :=
  .joined separator.isSeam_text (woven_clauses parts raw)

end Configuration

end RuleQuery
