/-
# Compiled statements pass the check

The compiler and the check of a statement know nothing of each other. The main statement is that
they agree: where the texts that a configuration holds as SQL are made of names, no name is a word
with a place of its own in a statement, and no double needs an exponent, the check finds no fault in
what the configuration is compiled to, and warns of a selected star and of the length at most.

Behind the select list, which is calm, and the table list, which is made of names and so has no
comma, every clause is a passage that starts with a keyword which ends the table list. It is this
keyword that keeps the commas of later clauses from being taken for those of the table list.
-/

import RuleQuery.Proofs.Injection.Statement
import RuleQuery.Proofs.Report.Rendered

namespace RuleQuery

open Sql (Environment Template Token tokens Cuts Passage listHasComma selectKeyword fromKeyword)
open Sql.Template (RendersCalm)

variable {env : Environment}

/-! ## Texts made of names -/

/-- A text that consists of tame names, and of signs and keywords between them. -/
structure IsNaming (s : String) : Prop where
  plain : Plain s.toList
  nonempty : tokens s.toList ≠ []
  named : ∀ t ∈ tokens s.toList, Name.IsNameToken t

namespace IsNaming

variable {a b s : String}

theorem of_isDotted (dotted : Name.isDotted s = true) (tame : Name.isTame s = true) :
    IsNaming s where
  plain := (fixed_of_isDotted dotted).plain
  nonempty := (Name.calm_of_isDotted dotted tame).nonempty
  named := Name.isNameToken_of_isDotted dotted tame

theorem of_isIdentifier (identifier : Name.isIdentifier s = true) (tame : Name.isTame s = true) :
    IsNaming s :=
  of_isDotted (Name.isDottedChars_of_isIdentifierChars identifier) tame

theorem followed (first : IsNaming a)
    (suffix : IsSeam s ∧ ∀ t ∈ tokens s.toList, Name.IsNameToken t) : IsNaming (a ++ s) := by
  obtain ⟨seam, named⟩ := suffix
  have cut : tokens (a ++ s).toList = tokens a.toList ++ tokens s.toList := by
    rw [String.toList_append, Sql.tokens_append first.plain (Sql.apart_of_closes seam.closes)]
  constructor
  · rw [String.toList_append]
    exact first.plain.append seam.fixed.plain
  · rw [cut]
    exact List.append_ne_nil_of_left_ne_nil first.nonempty _
  · rw [cut]
    exact List.forall_mem_append.mpr ⟨first.named, named⟩

theorem separated (first : IsNaming a)
    (between : IsSeparator s ∧ ∀ t ∈ tokens s.toList, Name.IsNameToken t) (second : IsNaming b) :
    IsNaming (a ++ s ++ b) := by
  obtain ⟨separator, named⟩ := between
  have front := first.followed ⟨separator.seam, named⟩
  have apart : Sql.Apart (a ++ s).toList b.toList := by
    refine .inl fun c mem => separator.last c ?_
    have nonempty : s.toList ≠ [] := by simpa using separator.seam.nonempty
    rwa [String.toList_append, List.getLast?_append_of_ne_nil _ nonempty] at mem
  have cut : tokens (a ++ s ++ b).toList = tokens (a ++ s).toList ++ tokens b.toList := by
    rw [String.toList_append, Sql.tokens_append front.plain apart]
  constructor
  · rw [String.toList_append]
    exact front.plain.append second.plain
  · rw [cut]
    exact List.append_ne_nil_of_left_ne_nil front.nonempty _
  · rw [cut]
    exact List.forall_mem_append.mpr ⟨front.named, second.named⟩

theorem flat (naming : IsNaming s) : Sql.Flat (tokens s.toList) := fun t mem =>
  (naming.named t mem).1

theorem rendersCalm (naming : IsNaming s) : RendersCalm env (Template.ofText s) :=
  .text naming.plain (.of_flat naming.flat naming.nonempty)

/-- The texts that may stand between two names. -/
theorem between_of_mem : ∀ s ∈ [" = ", " ON ", " AS ", " "],
    IsSeparator s ∧ ∀ t ∈ tokens s.toList, Name.IsNameToken t := by
  decide +kernel

/-- A table with an alias. -/
theorem table {name aliasName : String} (dotted : checkTableName name = .ok ())
    (checked : checkAlias (some aliasName) = .ok ()) (between : s ∈ [" AS ", " "])
    (tame : ∀ n ∈ [name, aliasName], Name.isTame n = true) : IsNaming (name ++ s ++ aliasName) :=
  (of_isDotted (isDotted_of_checkTableName dotted) (tame name (by simp))).separated
    (between_of_mem s (List.mem_append_right [" = ", " ON "] between))
    (of_isIdentifier (isIdentifier_of_checkAlias checked) (tame aliasName (by simp)))

end IsNaming

open Sql.Template in
/-- Calm entries with commas between them. -/
theorem Sql.Template.RendersCalm.entries {entries : List String} (nonempty : entries ≠ [])
    (calm : ∀ s ∈ entries, RendersCalm env (ofText s)) :
    RendersCalm env (ofText (String.intercalate ", " entries)) := by
  match entries with
  | [] => exact absurd rfl nonempty
  | [s] => simpa using calm s
  | s :: t :: rest =>
    have later := RendersCalm.entries (List.cons_ne_nil t rest) fun u mem =>
      calm u (List.mem_cons_of_mem s mem)
    have separator : IsSeparator ", " := isSeparator_of_mem _ (by simp)
    have whole := (calm s (by simp)).separated separator later
    rw [RendersCalm] at whole ⊢
    simpa [String.intercalate_cons_cons, ofText, Sql.Piece.fill] using whole

/-! ## Clauses behind the table list -/

/-- A text of keywords that ends the table list and opens a clause. -/
structure IsOpening (s : String) : Prop where
  plain : Plain s.toList
  last : Sql.LastOutside s.toList
  harmless : ∀ t ∈ tokens s.toList, t.isHarmless = true
  bare : ∀ t ∈ tokens s.toList, t ≠ .openParen ∧ t ≠ .closeParen ∧ t ≠ .comma
  ends : (tokens s.toList).any (Token.isAnyKeyword Sql.listEndKeywords) = true

instance (s : String) : Decidable (IsOpening s) :=
  decidable_of_iff (Plain s.toList ∧ Sql.LastOutside s.toList ∧
      (∀ t ∈ tokens s.toList, t.isHarmless = true) ∧
      (∀ t ∈ tokens s.toList, t ≠ .openParen ∧ t ≠ .closeParen ∧ t ≠ .comma) ∧
      (tokens s.toList).any (Token.isAnyKeyword Sql.listEndKeywords) = true)
    ⟨fun ⟨plain, last, harmless, bare, ends⟩ => ⟨plain, last, harmless, bare, ends⟩,
      fun ⟨plain, last, harmless, bare, ends⟩ => ⟨plain, last, harmless, bare, ends⟩⟩

/-- The table list has no comma in front of a keyword that ends it. -/
theorem Sql.listHasComma_of_ends {ts : List Token}
    (bare : ∀ t ∈ ts, t ≠ .openParen ∧ t ≠ .closeParen ∧ t ≠ .comma)
    (ends : ts.any (Token.isAnyKeyword listEndKeywords) = true) (rest : List Token) :
    listHasComma 0 (ts ++ rest) = false := by
  induction ts with
  | nil => simp at ends
  | cons t ts ih =>
      obtain ⟨⟨notOpen, notClose, notComma⟩, others⟩ := List.forall_mem_cons.mp bare
      rw [List.cons_append, listHasComma.eq_def]
      split
      · rfl
      · simp_all
      · simp_all
      next same =>
        obtain ⟨rfl, rfl⟩ := List.cons.inj same
        rw [if_pos rfl, if_neg notComma]
        split
        · rfl
        next inside =>
          refine ih others ?_
          simp_all

namespace Sql.Template

variable {t u : Template} {s : String}

/-- The tokens of a clause are a passage that ends the table list in front of it. -/
def EndsList (env : Environment) (t : Template) : Prop :=
  ∃ ts, Passage ts ∧ (∀ rest, listHasComma 0 (ts ++ rest) = false) ∧ Cuts (t.fill env).toList ts

theorem EndsList.opened (opening : IsOpening s) (calm : RendersCalm env u) :
    EndsList env (.text s :: u) := by
  obtain ⟨ts, calm, cuts⟩ := calm
  refine ⟨tokens s.toList ++ ts, ?_, fun rest => ?_, fun rest closes => ?_⟩
  · exact .of_keywords opening.harmless
      (fun t mem => ⟨(opening.bare t mem).1, (opening.bare t mem).2.1⟩) calm
  · rw [List.append_assoc]
    exact listHasComma_of_ends opening.bare opening.ends _
  · rw [fill_cons, String.toList_append, List.append_assoc, Piece.fill,
      tokens_append opening.plain (.inl opening.last), cuts rest closes, List.append_assoc]

/-- A clause may be a single text. -/
theorem EndsList.opened_text {shown : String} (opening : IsOpening s)
    (calm : RendersCalm env (ofText shown)) : EndsList env (ofText (s ++ shown)) := by
  have whole := EndsList.opened opening calm
  rw [EndsList] at whole ⊢
  simpa [ofText, Piece.fill] using whole

end Sql.Template

open Sql.Template (EndsList)

theorem isOpening_of_mem : ∀ s ∈ ["INNER JOIN ", "LEFT JOIN ", "RIGHT JOIN ", "FULL JOIN ",
    "WHERE ", "GROUP BY ", "HAVING ", "ORDER BY "], IsOpening s := by
  decide +kernel

theorem JoinKind.isOpening_symbol (kind : JoinKind) : IsOpening (kind.symbol ++ " JOIN ") := by
  cases kind <;> exact isOpening_of_mem _ (by decide)

theorem Join.Built.endsList {j : Join} (built : j.Built)
    (tame : ∀ name ∈ j.names, Name.isTame name = true) (condition : IsNaming j.condition) :
    EndsList env j.template := by
  obtain ⟨kind, table, aliasName, text, made, useAs, making, rfl⟩ := built
  obtain ⟨rfl, dotted, checked, _⟩ := Join.of_make making
  have whole {shown : String} (naming : IsNaming shown) :
      EndsList env (Template.ofText (kind.symbol ++ " JOIN " ++ shown ++ " ON " ++ text)) := by
    have joined := naming.separated (IsNaming.between_of_mem " ON " (by simp)) condition
    have clause : EndsList env _ := .opened_text kind.isOpening_symbol joined.rendersCalm
    simpa only [String.append_assoc] using clause
  cases aliasName with
  | none =>
      exact whole (.of_isDotted (isDotted_of_checkTableName dotted) (tame table (by simp [names])))
  | some a =>
      have between : (if useAs then " AS " else " ") ∈ [" AS ", " "] := by
        cases useAs <;> simp
      exact whole (.table dotted checked between tame)

theorem TableRef.Built.naming {t : TableRef} (built : t.Built)
    (tame : ∀ name ∈ t.names, Name.isTame name = true) :
    ∃ shown, t.template = Template.ofText shown ∧ IsNaming shown := by
  obtain ⟨name, aliasName, made⟩ := built
  obtain ⟨rfl, dotted, checked⟩ := TableRef.of_make made
  refine ⟨_, rfl, ?_⟩
  cases aliasName with
  | none => exact .of_isDotted (isDotted_of_checkTableName dotted) (tame name (by simp [names]))
  | some a => exact .table dotted checked (by simp) tame

theorem WhereClause.Built.endsList {w : WhereClause} (built : w.Built)
    (calm : ∀ c ∈ w.conditions, RendersCalm env c.template) :
    ∀ t ∈ w.template?, EndsList env t := by
  intro t mem
  obtain ⟨whole, rfl⟩ := built.of_mem_template? mem
  refine .opened (isOpening_of_mem "WHERE " (by simp)) (whole.calm ?_)
  rwa [conjunction, Predicate.conditions]

/-! ## The statement -/

namespace Sql

/-- Clauses start with a blank each, so they may follow a fragment. -/
theorem closes_tails (env : Environment) (separator : Separator) (tails : List Template)
    {rest : List Char} (closes : Closes rest) :
    Closes ((Template.fill env (tails.flatMap (.text separator.text :: ·))).toList ++ rest) := by
  cases tails with
  | nil => exact closes
  | cons t tails =>
      obtain ⟨c, chars, _, closer⟩ := separator.toList_text
      simpa [Piece.fill, chars, Closes] using closer

/-- Clauses one after another, each behind a blank, go on with a passage that ends the table list.
-/
theorem exists_tokens_tails (separator : Separator) {tails : List Template}
    (ends : ∀ t ∈ tails, EndsList env t) :
    ∃ us, (∀ ts, Passage ts → Passage (ts ++ us)) ∧ listHasComma 0 us = false ∧
      Cuts (Template.fill env (tails.flatMap (.text separator.text :: ·))).toList us := by
  induction tails with
  | nil => exact ⟨[], by simp, rfl, fun rest _ => by simp⟩
  | cons t tails ih =>
      obtain ⟨first, others⟩ := List.forall_mem_cons.mp ends
      obtain ⟨us, extends_, _, cuts⟩ := ih others
      obtain ⟨ts, passage, single, cut⟩ := first
      refine ⟨ts ++ us, fun front before => ?_, single us, fun rest closes => ?_⟩
      · rw [← List.append_assoc]
        exact extends_ _ (before.append passage)
      · obtain ⟨c, chars, blank, _⟩ := separator.toList_text
        have behind := closes_tails env separator tails closes
        rw [List.flatMap_cons, List.cons_append, Template.fill_cons, Template.fill_append,
          Piece.fill, String.toList_append, String.toList_append, chars, List.append_assoc,
          List.singleton_append, tokens_blank blank, List.append_assoc, cut _ behind,
          cuts rest closes, List.append_assoc]

/-- The tokens of a statement with a calm select list, a table, and clauses that end the list. -/
theorem exists_tokens_statement (separator : Separator) {selected : Template} {table : String}
    {tails : List Template} (calm : RendersCalm env selected) (naming : IsNaming table)
    (ends : ∀ t ∈ tails, EndsList env t) :
    ∃ ts us, (∀ t ∈ ts, t.isCalm = true) ∧ Passage (ts ++ fromKeyword :: us) ∧
      listHasComma 0 us = false ∧
      tokens (Template.fill env (Template.joined separator.text
        ((.text "SELECT " :: selected) ::
          (.text "FROM " :: Template.ofText table) :: tails))).toList
        = selectKeyword :: ts ++ fromKeyword :: us := by
  obtain ⟨ts, selectedCalm, cuts⟩ := calm
  obtain ⟨us, extends_, single, cut⟩ := exists_tokens_tails separator ends
  refine ⟨ts, tokens table.toList ++ us, selectedCalm.calm, ?_, ?_, ?_⟩
  · have source : Passage ([fromKeyword] ++ tokens table.toList) :=
      .of_keywords (by decide) (by decide) (.of_flat naming.flat naming.nonempty)
    simpa using extends_ _ ((Passage.of_calm selectedCalm).append source)
  · refine listHasComma_append naming.flat (fun mem => (naming.named _ mem).2 rfl) single
  · obtain ⟨c, chars, blank, closer⟩ := separator.toList_text
    have keywords : tokens "SELECT ".toList = [selectKeyword] ∧
        tokens "FROM ".toList = [fromKeyword] := by decide +kernel
    have behind := closes_tails env separator tails .nil
    have border (cs : List Char) : Closes (c :: cs) := closer
    have shown : (Template.fill env (Template.joined separator.text
        ((.text "SELECT " :: selected) ::
          (.text "FROM " :: Template.ofText table) :: tails))).toList
        = "SELECT ".toList ++ ((Template.fill env selected).toList ++ c :: ("FROM ".toList ++
          (table.toList ++
            ((Template.fill env (tails.flatMap (.text separator.text :: ·))).toList ++ [])))) := by
      simp [Template.joined_cons, Template.ofText, Piece.fill, chars]
    rw [shown, tokens_append (by decide) (.inl (by decide)), keywords.1, cuts _ (border _),
      tokens_blank blank, tokens_append (by decide) (.inl (by decide)), keywords.2,
      tokens_append naming.plain (apart_of_closes behind), cut [] .nil]
    simp

end Sql

/-! ## Configurations -/

namespace Configuration

variable {c : Configuration} {bindings : Bindings}

/-- A parameter has the value that is bound to it, or else its default. -/
theorem isPositional_of_environment (positional : ∀ l ∈ c.literals, l.IsPositional)
    (bound : ∀ e ∈ bindings.entries, e.2.IsPositional) {name : String} {value : Literal}
    (given : c.environment bindings name = some value) : value.IsPositional := by
  rcases Option.or_eq_some_iff.mp given with binding | ⟨_, default⟩
  · exact bound _ (mem_of_lookup? binding)
  · obtain ⟨p, declared, same⟩ := Option.bind_eq_some_iff.mp default
    refine positional value (List.mem_append_right _ (List.mem_filterMap.mpr ?_))
    exact ⟨(name, p), mem_of_lookup? declared, same⟩

theorem rendersCalm_slots (named : c.WrittenInNames) (positional : ∀ l ∈ c.literals, l.IsPositional)
    (bound : ∀ e ∈ bindings.entries, e.2.IsPositional) :
    ∀ l ∈ c.statementLiterals, RendersCalm (c.environment bindings) [.slot l] := by
  intro l mem
  refine .slot (fun name parameter => named.tame name ?_)
    (positional l (List.mem_append_left _ mem))
    fun name value given => isPositional_of_environment positional bound given
  exact List.mem_append_right _ (List.mem_filterMap.mpr ⟨l, mem, parameter⟩)

section Clauses

variable (parts : c.Parts) (named : c.WrittenInNames)
  (slots : ∀ l ∈ c.statementLiterals, RendersCalm env [.slot l])

include named slots in
theorem rendersCalm_condition {condition : Condition} (built : condition.Built)
    (member : condition ∈ c.conditions.conditions ++ c.having) :
    RendersCalm env condition.template := by
  refine built.calm (named.tame_condition member) fun l mem => slots l ?_
  have inside := List.mem_flatMap.mpr ⟨condition, member, mem⟩
  rw [List.flatMap_append] at inside
  rw [statementLiterals, List.append_assoc]
  exact List.mem_append_right _ inside

include parts named slots in
theorem rendersCalm_fields :
    RendersCalm env (Template.joined ", " (c.select.fields.map SelectField.template)) := by
  obtain ⟨fields, built, made⟩ := parts.select
  obtain ⟨same, nonempty⟩ := Select.of_make made
  rw [same]
  refine .joined (by simpa using nonempty) (isSeparator_of_mem _ (by simp)) fun t mem => ?_
  obtain ⟨f, field, rfl⟩ := List.mem_map.mp mem
  have member : f ∈ c.select.fields := by rwa [same]
  refine (built f field).calm (named.selected f member) (named.tame_field member)
    fun l inside => slots l ?_
  rw [statementLiterals, List.append_assoc]
  exact List.mem_append_left _ (List.mem_flatMap.mpr ⟨f, member, inside⟩)

include parts named in
theorem endsList_join {j : Join} (join : j ∈ c.joins) : EndsList env j.template := by
  obtain ⟨left, right, shown, both⟩ := named.joined j join
  have first := both left (by simp)
  have second := both right (by simp)
  refine (parts.joins j join).endsList (named.tame_join join) ?_
  rw [shown]
  exact (IsNaming.of_isDotted first.1 first.2).separated (IsNaming.between_of_mem " = " (by simp))
    (.of_isDotted second.1 second.2)

include named in
theorem endsList_grouping (some : c.groupBy ≠ []) :
    EndsList env (Template.ofText ("GROUP BY " ++ String.intercalate ", " c.groupBy)) := by
  refine .opened_text (isOpening_of_mem _ (by simp)) (.entries some fun entry member => ?_)
  have dotted := named.grouped entry member
  exact (IsNaming.of_isDotted dotted (named.tame_grouping member)).rendersCalm

include parts named slots in
theorem endsList_having (some : c.having ≠ []) : EndsList env
    (.text "HAVING " :: Template.joined " AND " (c.having.map Condition.template)) := by
  refine .opened (isOpening_of_mem _ (by simp)) ?_
  refine .joined (by simpa using some) (isSeparator_of_mem _ (by simp)) fun t shown => ?_
  obtain ⟨condition, member, rfl⟩ := List.mem_map.mp shown
  exact rendersCalm_condition named slots (parts.having condition member)
    (List.mem_append_right _ member)

include named in
theorem endsList_ordering (some : c.orderBy ≠ []) :
    EndsList env (Template.ofText ("ORDER BY " ++ String.intercalate ", " c.orderBy)) := by
  refine .opened_text (isOpening_of_mem _ (by simp)) (.entries some fun entry member => ?_)
  obtain ⟨name, dotted, tame, shown⟩ := named.ordered entry member
  have naming : IsNaming name := .of_isDotted dotted tame
  have directed (direction : String) (word : Name.isIdentifier direction = true)
      (tame : Name.isTame direction = true) : IsNaming (name ++ " " ++ direction) :=
    naming.separated (IsNaming.between_of_mem " " (by simp)) (.of_isIdentifier word tame)
  simp only [List.mem_cons, List.not_mem_nil, or_false] at shown
  rcases shown with rfl | rfl | rfl
  · exact naming.rendersCalm
  · have ascending := directed "ASC" (by decide) (by decide)
    exact IsNaming.rendersCalm (by simpa [String.append_assoc] using ascending)
  · have descending := directed "DESC" (by decide) (by decide)
    exact IsNaming.rendersCalm (by simpa [String.append_assoc] using descending)

include parts named slots in
/-- The clauses behind the table: joins, WHERE, GROUP BY, HAVING and ORDER BY. -/
theorem endsList_tails {t : Template} (mem : t ∈ c.clauses.drop 2) : EndsList env t := by
  simp only [clauses, List.cons_append, List.nil_append, List.drop_succ_cons, List.drop_zero,
    List.mem_append, Option.mem_toList] at mem
  rcases mem with (((mem | mem) | mem) | mem) | mem
  · obtain ⟨j, join, rfl⟩ := List.mem_map.mp mem
    exact endsList_join parts named join
  · refine WhereClause.Built.endsList parts.conditions (fun condition member => ?_) t mem
    have built := WhereClause.Built.conditions parts.conditions condition member
    exact rendersCalm_condition named slots built (List.mem_append_left _ member)
  · split at mem
    · cases mem
    next some => rw [List.mem_singleton.mp mem]; exact endsList_grouping named (by simpa using some)
  · split at mem
    · cases mem
    next some =>
      rw [List.mem_singleton.mp mem]
      exact endsList_having parts named slots (by simpa using some)
  · split at mem
    · cases mem
    next some => rw [List.mem_singleton.mp mem]; exact endsList_ordering named (by simpa using some)

end Clauses

/--
A valid configuration whose texts are made of names, with no reserved word among them, and without
doubles that need an exponent, is compiled to a statement in which the check finds no fault. Of the
warnings there are, one is about a selected star and one about the length.
-/
theorem report_compile (built : c.Built) (valid : c.validate = .ok ()) (named : c.WrittenInNames)
    (positional : ∀ l ∈ c.literals, l.IsPositional)
    (bound : ∀ e ∈ bindings.entries, e.2.IsPositional) (settings : Settings) (maxLength : Nat) :
    ∃ q, c.compile settings bindings = .ok q ∧
      (Sql.Report.of maxLength q.sql).faults = [] ∧
      ∀ w ∈ (Sql.Report.of maxLength q.sql).warnings,
        w = .selectStar ∨ w = .veryLong (Text.squeeze q.sql).length := by
  refine ⟨_, compile_of_valid valid settings bindings, ?_⟩
  have slots := rendersCalm_slots named positional bound
  obtain ⟨shown, table, naming⟩ := built.parts.table.naming named.tame_table
  have clauses : c.clauses = (.text "SELECT " :: Template.joined ", "
      (c.select.fields.map SelectField.template)) ::
        (.text "FROM " :: Template.ofText shown) :: c.clauses.drop 2 := by
    rw [← table]
    rfl
  obtain ⟨ts, us, calm, passage, single, cut⟩ := Sql.exists_tokens_statement settings.separator
    (rendersCalm_fields built.parts named slots) naming
    fun t mem => endsList_tails built.parts named slots mem
  rw [← clauses] at cut
  have letter := c.mem_fill_template settings.separator (c.environment bindings)
  have source : (ts ++ fromKeyword :: us).any (Token.isKeyword "FROM") = true :=
    List.any_eq_true.mpr ⟨fromKeyword, by simp, by decide⟩
  have code := passage.code_eq
  rw [← List.cons_append] at code
  rw [Sql.Report.of_shown letter (by decide), template, cut, code]
  exact ⟨passage.faults_eq_nil source, Sql.warnings_select calm single maxLength _⟩

end Configuration

/-- The orders of each customer that are of one owner or of none, and neither small nor large. -/
def ownedOrders : Configuration where
  select := ⟨[⟨.raw "c.name", some "customer"⟩,
    ⟨.call ⟨"COUNT_DISTINCT", [.column "o.id"]⟩, some "orders"⟩]⟩
  table := ⟨"shop.orders", some "o"⟩
  joins := [⟨.left, "customers", some "c", "o.customer = c.id", true⟩]
  conditions := ⟨[
    .condition ⟨.column "o.total", .between, .list [.float (.ofDecimal false 105 (-1)), .int 500]⟩,
    .group .or [
      .condition ⟨.column "o.owner", .equal, .scalar (.string (Name.placeholder "owner"))⟩,
      .condition ⟨.column "o.owner", .isNull, .absent⟩]]⟩
  groupBy := ["c.name", "c.id"]
  having := [⟨.call ⟨"COUNT", [.column "o.id"]⟩, .greater, .scalar (.int 3)⟩]
  orderBy := ["c.name DESC", "c.id"]
  parameters := NameMap.empty.insert "owner" (.ofRequired .string)

theorem ownedOrders_built : ownedOrders.Built := by
  have count (function : String) (made : Call.make function [.column "o.id"] =
      .ok ⟨function, [.column "o.id"]⟩) : Call.Built ⟨function, [.column "o.id"]⟩ :=
    ⟨function, [.column "o.id"], by simp [Argument.Built.column], made⟩
  apply Configuration.Parts.built
  constructor
  · refine ⟨ownedOrders.select.fields, ?_, rfl⟩
    simp only [ownedOrders, List.forall_mem_cons]
    exact ⟨⟨.raw "c.name", some "customer", .raw _, rfl⟩,
      ⟨_, some "orders", .call (count "COUNT_DISTINCT" rfl), rfl⟩, by simp⟩
  · exact ⟨"shop.orders", some "o", rfl⟩
  · simp only [ownedOrders, List.forall_mem_cons]
    have made : Join.make .left "customers" (some "c") "o.customer = c.id" =
        .ok ⟨.left, "customers", some "c", "o.customer = c.id", true⟩ := by decide
    exact ⟨⟨.left, "customers", some "c", "o.customer = c.id", _, true, made, rfl⟩, by simp⟩
  · have range (x : Number.Binary64) : Condition.Built
        ⟨.column "o.total", .between, .list [.float x, .int 500]⟩ :=
      ⟨_, .between, .list [.float x, .int 500], .column "o.total", .list _, rfl⟩
    have owned : Condition.Built
        ⟨.column "o.owner", .equal, .scalar (.string (Name.placeholder "owner"))⟩ :=
      ⟨_, .equal, .scalar (.string (Name.placeholder "owner")), .column "o.owner", .scalar _, rfl⟩
    have unowned : Condition.Built ⟨.column "o.owner", .isNull, .absent⟩ :=
      ⟨_, .isNull, .absent, .column "o.owner", .absent, rfl⟩
    refine List.forall_mem_cons.mpr ⟨.condition (range _), List.forall_mem_cons.mpr ⟨?_, by simp⟩⟩
    refine .ofMembers .or (by simp) ?_
    exact List.forall_mem_cons.mpr ⟨.condition owned,
      List.forall_mem_cons.mpr ⟨.condition unowned, by simp⟩⟩
  · simp only [ownedOrders, List.forall_mem_cons]
    exact ⟨⟨_, .greater, .scalar (.int 3), .call (count "COUNT" rfl), .scalar _, rfl⟩, by simp⟩

theorem ownedOrders_writtenInNames : ownedOrders.WrittenInNames where
  selected := by
    simp only [ownedOrders, List.forall_mem_cons]
    exact ⟨fun text same => Selected.raw.inj same ▸ by decide, by simp, by simp⟩
  joined := by
    simp only [ownedOrders, List.forall_mem_cons]
    exact ⟨⟨"o.customer", "c.id", by decide, by decide⟩, by simp⟩
  grouped := by decide
  ordered := by
    simp only [ownedOrders, List.forall_mem_cons]
    exact ⟨⟨"c.name", by decide⟩, ⟨"c.id", by decide⟩, by simp⟩
  tame := by decide

/-- Quotes and hyphens in a string are not taken for more than they are, nor commas behind FROM. -/
theorem report_compile_ownedOrders :
    let bindings := NameMap.empty.insert "owner" (.string "it's; --")
    ownedOrders.Built ∧ ownedOrders.validate = .ok () ∧ ownedOrders.WrittenInNames ∧
      (∀ l ∈ ownedOrders.literals, l.IsPositional) ∧
      (∀ e ∈ bindings.entries, e.2.IsPositional) ∧
      ∃ q, ownedOrders.compile .default bindings = .ok q ∧
        (Sql.Report.of 1000 q.sql).faults = [] ∧
        ∀ w ∈ (Sql.Report.of 1000 q.sql).warnings,
          w = .selectStar ∨ w = .veryLong (Text.squeeze q.sql).length := by
  intro bindings
  have valid : ownedOrders.validate = .ok () := by decide
  have positional : ∀ l ∈ ownedOrders.literals, l.IsPositional := by
    have literals : ownedOrders.literals = [.float (.ofDecimal false 105 (-1)),
        .int 500, .string (Name.placeholder "owner"), .int 3] := by decide +kernel
    rw [literals]
    simp only [List.forall_mem_cons, Literal.IsPositional]
    have shown : (Literal.float (.ofDecimal false 105 (-1))).IsPositional :=
      ⟨false, ['1', '0'], ['5'], by decide +kernel, by decide, by decide,
        List.all_eq_true.mp (by decide)⟩
    exact ⟨shown, trivial, trivial, trivial, by simp⟩
  have bound : ∀ e ∈ bindings.entries, e.2.IsPositional :=
    List.forall_mem_singleton.mpr trivial
  exact ⟨ownedOrders_built, valid, ownedOrders_writtenInNames, positional, bound,
    Configuration.report_compile ownedOrders_built valid ownedOrders_writtenInNames positional bound
      .default 1000⟩

end RuleQuery
