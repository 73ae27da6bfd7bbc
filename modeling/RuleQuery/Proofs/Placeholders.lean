/-
# Which parameters a statement leaves open

Two traversals name the parameters of a configuration. The compiler renders the clauses and reports
what it could not fill in; the configuration collects the placeholders of WHERE and HAVING on its
own, for its check. The main statement is that they agree: what a compilation reports is the list of
the placeholders of the select list followed by the collected ones, each where it is first met, less
those that have a value.

The proof goes node by node. The parameters in the template of a node are the placeholders of the
node, in the same order and with the same repeats. For a condition this needs what its constructor
has checked, because the comparisons that take no value are rendered without one.

The check asks for a declaration of the placeholders of WHERE and HAVING only. So a placeholder in
the select list may be left open in a configuration that is valid and has all its parameters bound,
and this is the only place where that can happen.
-/

import RuleQuery.Proofs.Filling
import RuleQuery.Proofs.Where.Precedence
import RuleQuery.Sql.Compile

namespace RuleQuery

open Sql (Environment Template)

/-- The parameters named in a selected field, with repeats, from left to right. -/
def Selected.placeholders : Selected → List String
  | .raw _ => []
  | .call c => c.placeholders

/-- The parameters named in the calls of the select list, with repeats, from left to right. -/
def Select.placeholders (s : Select) : List String :=
  s.fields.flatMap (·.expression.placeholders)

namespace Sql.Template

variable {t : Template}

theorem openNames_text_cons (s : String) (t : Template) :
    openNames .empty (.text s :: t) = t.openNames .empty := rfl

/-- A text at the end names no parameter. -/
theorem openNames_append_text (t : Template) (s : String) :
    openNames .empty (t ++ [.text s]) = t.openNames .empty := by
  rw [openNames_append, openNames_text_cons]
  exact List.append_nil _

theorem openNames_slot_cons (l : Literal) (t : Template) :
    openNames .empty (.slot l :: t) = l.placeholder?.toList ++ t.openNames .empty := by
  rw [openNames, List.filterMap_cons, Piece.open?, ← openNames]
  cases parameter : l.placeholder? <;> rfl

theorem openNames_slot (l : Literal) : openNames .empty [.slot l] = l.placeholder?.toList := by
  rw [openNames_slot_cons]
  exact List.append_nil _

theorem openNames_parenthesized (t : Template) :
    openNames .empty (parenthesized t) = t.openNames .empty := by
  rw [parenthesized, List.cons_append, openNames_text_cons, openNames_append_text]

end Sql.Template

open Sql.Template

/-! ## The nodes -/

theorem Call.openNames_templateOf (function : String) (args : List Template) :
    (templateOf function args).openNames .empty = args.flatMap (Template.openNames .empty) := by
  rw [templateOf, List.cons_append, openNames_text_cons, openNames_append_text, openNames_joined]

namespace Argument

mutual

/-- The parameters in the template of an argument are its placeholders. -/
theorem openNames_template : (a : Argument) → a.template.openNames .empty = a.placeholders
  | .literal l => openNames_slot l
  | .column _ => rfl
  | .call function args => by
      rw [template, placeholders, Call.openNames_templateOf, openNames_templates args]

theorem openNames_templates : (args : List Argument) →
    (templates args).flatMap (Template.openNames .empty) = placeholdersOf args
  | [] => rfl
  | a :: args => by
      rw [templates, placeholdersOf, List.flatMap_cons, openNames_template a,
        openNames_templates args]

end

end Argument

theorem Call.openNames_template (c : Call) : c.template.openNames .empty = c.placeholders :=
  c.toArgument.openNames_template

theorem Field.openNames_template (f : Field) : f.template.openNames .empty = f.placeholders := by
  cases f with
  | column name => rfl
  | call c => exact c.openNames_template

/-- The placeholders of a value that is no call are those of its literals. -/
theorem Operand.placeholders_eq_flatMap {v : Operand} (noCall : ∀ c, v ≠ .call c) :
    v.placeholders = v.literals.flatMap fun l => l.placeholder?.toList := by
  rw [← List.filterMap_eq_flatMap_toList]
  cases v with
  | call c => exact absurd rfl (noCall c)
  | _ => rfl

theorem Operand.openNames_template (v : Operand) :
    v.template.openNames .empty = v.placeholders := by
  cases v with
  | absent => rfl
  | call c => exact c.openNames_template
  | scalar l =>
      rw [template, openNames_slot, placeholders_eq_flatMap (by simp), literals,
        List.flatMap_singleton]
  | list items =>
      rw [template, openNames_parenthesized, openNames_joined, List.flatMap_map,
        placeholders_eq_flatMap (by simp), literals]
      simp only [openNames_slot]

/-- A value for a comparison that takes none names no parameter. -/
theorem Operand.placeholders_of_check {op : Comparison} {v : Operand} (arity : op.arity = .none)
    (checked : v.check op = .ok ()) : v.placeholders = [] := by
  unfold check at checked
  rw [arity] at checked
  cases v with
  | absent => rfl
  | _ => cases checked

/-- The parameters in the template of a condition are those of its field, then of its value. -/
theorem Condition.Built.openNames_template {c : Condition} (built : c.Built) :
    c.template.openNames .empty = c.placeholders := by
  obtain ⟨field, op, value, _, _, made⟩ := built
  obtain ⟨rfl, _, checked⟩ := Condition.of_make made
  have left := field.openNames_template
  have right := value.normal.openNames_template
  rw [Condition.placeholders]
  unfold template
  split
  next arity =>
    rw [openNames_append_text, left, Operand.placeholders_of_check arity checked, List.append_nil]
  next low high _ same =>
    have bounds : value.normal = .list [low, high] := same
    rw [openNames_append, left, bounds, Operand.placeholders_eq_flatMap (by simp)]
    simp only [Operand.literals, openNames_text_cons, openNames_slot_cons, List.flatMap_cons]
    rfl
  · rw [openNames_append, left, openNames_text_cons, right]

/-- Parentheses around members leave the parameters in them. -/
theorem Predicate.openNames_memberTemplates {ps : List Predicate}
    (members : ∀ p ∈ ps, p.template.openNames .empty = p.placeholders) :
    (memberTemplates ps).flatMap (Template.openNames .empty) =
      (conditionsOf ps).flatMap Condition.placeholders := by
  induction ps with
  | nil => rfl
  | cons p ps ih =>
      have head : p.template.openNames .empty = p.placeholders := members p (by simp)
      have rest := ih fun q mem => members q (List.mem_cons_of_mem p mem)
      rw [memberTemplates, conditionsOf, List.flatMap_cons, List.flatMap_append, rest]
      congr 1
      split
      · rw [openNames_parenthesized]
        exact head
      · exact head

theorem Predicate.openNames_group (connective : Connective) {members : List Predicate}
    (same : ∀ p ∈ members, p.template.openNames .empty = p.placeholders) :
    (group connective members).template.openNames .empty =
      (group connective members).placeholders := by
  have inside := openNames_memberTemplates same
  rw [Predicate.placeholders, Predicate.conditions]
  rcases members with _ | ⟨only, _ | ⟨q, rest⟩⟩
  · rfl
  · rw [template, conditionsOf, conditionsOf, List.append_nil]
    exact same only (by simp)
  · rw [template, openNames_joined, inside]
    all_goals simp

/-- A group is rendered with the parameters of its members, in their order. -/
theorem Predicate.Built.openNames_template {p : Predicate} (built : p.Built) :
    p.template.openNames .empty = p.placeholders := by
  induction built with
  | condition built =>
      rw [Predicate.template, Predicate.placeholders, Predicate.conditions, List.flatMap_singleton]
      exact built.openNames_template
  | @group members connective g _ made ih =>
      obtain ⟨same, _⟩ := Group.of_make made
      rw [← same] at ih
      exact Predicate.openNames_group g.connective ih

theorem WhereClause.Built.openNames_template {w : WhereClause} (built : w.Built) :
    w.template?.toList.flatMap (Template.openNames .empty) =
      w.conditions.flatMap Condition.placeholders := by
  by_cases nothing : w.members = []
  · rw [WhereClause.template?, WhereClause.conditions, nothing]
    rfl
  · rw [WhereClause.template?_of_members nothing, Option.toList_some, List.flatMap_singleton,
      openNames_text_cons]
    exact Predicate.openNames_group .and fun p mem => (built p mem).openNames_template

theorem Select.openNames_template (s : Select) :
    s.template.openNames .empty = s.placeholders := by
  have field (f : SelectField) :
      f.template.openNames .empty = f.expression.placeholders := by
    have selected : f.expression.template.openNames .empty = f.expression.placeholders := by
      cases f.expression with
      | raw text => rfl
      | call c => exact c.openNames_template
    unfold SelectField.template
    split
    · rw [openNames_append_text, selected]
    · exact selected
  rw [template, openNames_text_cons, openNames_joined, List.flatMap_map, Select.placeholders]
  simp only [field]

namespace Configuration

variable {c : Configuration}

/-- The HAVING clause, if there is one, is rendered with the parameters of its conditions. -/
theorem openNames_having (having : ∀ condition ∈ c.having, condition.Built) :
    (if c.having.isEmpty then []
      else [.text "HAVING " :: Template.joined " AND " (c.having.map Condition.template)]).flatMap
        (Template.openNames .empty) = c.having.flatMap Condition.placeholders := by
  split
  next nothing =>
    rw [List.isEmpty_iff.mp nothing]
    rfl
  · rw [List.flatMap_singleton, openNames_text_cons, openNames_joined, List.flatMap_map]
    simp only [List.flatMap_def]
    congr 1
    exact List.map_congr_left fun condition mem => (having condition mem).openNames_template

/--
The parameters in the statement of a configuration are those of the select list, then those of WHERE
and of HAVING, with all repeats.
-/
theorem Built.slotNames_eq (built : c.Built) :
    c.slotNames = c.select.placeholders ++
      (c.conditions.conditions ++ c.having).flatMap Condition.placeholders := by
  have joins : (c.joins.map Join.template).flatMap (Template.openNames .empty) = [] := by
    rw [List.flatMap_map]
    exact List.flatMap_eq_nil_iff.mpr fun j _ => rfl
  have text (absent : Bool) (s : String) :
      (if absent then [] else [Template.ofText s]).flatMap (Template.openNames .empty) = [] := by
    cases absent <;> rfl
  have heads : [c.select.template, .text "FROM " :: c.table.template].flatMap
      (Template.openNames .empty) = c.select.placeholders := by
    rw [List.flatMap_cons, c.select.openNames_template]
    exact List.append_nil _
  simp only [slotNames, clauses, List.flatMap_append, heads, joins, text, List.append_nil,
    built.parts.conditions.openNames_template, openNames_having built.parts.having,
    List.nil_append, List.append_assoc]

/-- The names that a compilation reports: in the statement, and without a value. -/
theorem compile_unresolved (valid : c.validate = .ok ()) (settings : Settings)
    (bindings : Bindings) :
    ∃ q, c.compile settings bindings = .ok q ∧
      q.unresolved = (firstSeen c.slotNames).filter fun name =>
        (c.environment bindings name).isNone := by
  refine ⟨_, compile_of_valid valid settings bindings, ?_⟩
  rw [Template.openNames_eq_filter, firstSeen_filter, openNames_template]

/-- A name has no value if it is neither bound nor declared with a default. -/
theorem isNone_environment (c : Configuration) (bindings : Bindings) (name : String) :
    (c.environment bindings name).isNone =
      (!bindings.contains name && ((c.parameters.find? name).bind Parameter.default).isNone) := by
  rw [environment, NameMap.contains]
  cases bindings.find? name <;> rfl

/--
What a compilation leaves open: of the placeholders of the select list and then of the collected
ones, each where it is first met, those with neither a binding nor a declared default.
-/
theorem unresolved_compile (built : c.Built) (valid : c.validate = .ok ()) (settings : Settings)
    (bindings : Bindings) :
    ∃ q, c.compile settings bindings = .ok q ∧
      q.unresolved = (c.select.placeholders ++ c.placeholders).eraseDups.filter fun name =>
        !bindings.contains name && ((c.parameters.find? name).bind Parameter.default).isNone := by
  obtain ⟨q, compiled, reported⟩ := compile_unresolved valid settings bindings
  refine ⟨q, compiled, ?_⟩
  rw [reported, built.slotNames_eq, placeholders, ← firstSeen_eq_eraseDups,
    firstSeen_append_firstSeen]
  simp only [isNone_environment]

/-- A configuration that passes its check has no fault of either sort. -/
theorem faults_of_validate (valid : c.validate = .ok ()) :
    c.clauseFault? = none ∧ c.referenceFault? = none := by
  rw [validate] at valid
  cases clause : c.clauseFault? with
  | some fault =>
      rw [clause] at valid
      cases valid
  | none =>
      rw [clause] at valid
      cases reference : c.referenceFault? with
      | some fault =>
          rw [reference] at valid
          cases valid
      | none => exact ⟨rfl, rfl⟩

/-- Where any parameter is declared, every collected placeholder is. -/
theorem declared_of_validate (valid : c.validate = .ok ()) (declares : c.parameters.isEmpty = false)
    {name : String} (named : name ∈ c.placeholders) : c.parameters.contains name = true := by
  have noFault := (faults_of_validate valid).2
  rw [referenceFault?] at noFault
  split at noFault
  · cases noFault
  · rw [declares, if_neg Bool.false_ne_true, Option.map_eq_none_iff, List.find?_eq_none] at noFault
    simpa using noFault name named

/-- A declared parameter has a value if it is bound wherever it has no default. -/
theorem isNone_environment_of_find? {bindings : Bindings} {name : String} {p : Parameter}
    (found : c.parameters.find? name = some p)
    (bound : p.default = none → bindings.contains name = true) :
    (c.environment bindings name).isNone = false := by
  rw [isNone_environment, found, Option.bind_some]
  cases default : p.default with
  | some l => simp
  | none => simp [bound default]

/-- Bindings of every declared parameter that has no default. -/
def Supplies (bindings : Bindings) (c : Configuration) : Prop :=
  ∀ name p, c.parameters.find? name = some p → p.default = none → bindings.contains name = true

/-- Then every declared parameter has a value. -/
theorem isNone_environment_of_declared {bindings : Bindings} (bound : Supplies bindings c)
    {name : String} (declared : c.parameters.contains name = true) :
    (c.environment bindings name).isNone = false := by
  obtain ⟨p, found⟩ := Option.isSome_iff_exists.mp declared
  exact isNone_environment_of_find? found (bound name p found)

/-- With nothing missing from the bindings, no required parameter is left open. -/
theorem not_mem_unresolved_of_required {settings : Settings} {bindings : Bindings}
    {q : CompiledQuery} (compiled : c.compile settings bindings = .ok q)
    (nothing : c.missingParameters bindings = []) {name : String} {p : Parameter}
    (found : c.parameters.find? name = some p) (required : p.required = true) :
    name ∉ q.unresolved := by
  rw [missingParameters, List.map_eq_nil_iff, List.filter_eq_nil_iff] at nothing
  have bound : p.default = none → bindings.contains name = true := by
    simpa [required] using nothing (name, p) (mem_of_lookup? found)
  obtain ⟨q', same, reported⟩ :=
    compile_unresolved (validate_of_compile compiled) settings bindings
  cases compiled.symm.trans same
  rw [reported, List.mem_filter, isNone_environment_of_find? found bound]
  simp

/--
Of a valid configuration that declares parameters and has all of them bound, or else a default, no
placeholder of WHERE and HAVING is left open. What is left open are the placeholders of the select
list that are neither declared nor bound.
-/
theorem mem_unresolved_compile (built : c.Built) (valid : c.validate = .ok ())
    (declares : c.parameters.isEmpty = false) (settings : Settings) {bindings : Bindings}
    (bound : Supplies bindings c) :
    ∃ q, c.compile settings bindings = .ok q ∧
      (∀ name ∈ c.placeholders, (c.environment bindings name).isSome = true ∧
        name ∉ q.unresolved) ∧
      (∀ name, name ∈ q.unresolved ↔ name ∈ c.select.placeholders ∧
        c.parameters.contains name = false ∧ bindings.contains name = false) ∧
      (q.isFullyBound = true ↔ ∀ name ∈ c.select.placeholders,
        c.parameters.contains name = true ∨ bindings.contains name = true) := by
  obtain ⟨q, compiled, reported⟩ := compile_unresolved valid settings bindings
  have collected (name : String) (named : name ∈ c.placeholders) :
      (c.environment bindings name).isNone = false :=
    isNone_environment_of_declared bound (declared_of_validate valid declares named)
  have mem (name : String) : name ∈ q.unresolved ↔ name ∈ c.select.placeholders ∧
      c.parameters.contains name = false ∧ bindings.contains name = false := by
    rw [reported, List.mem_filter, mem_firstSeen, built.slotNames_eq, List.mem_append]
    constructor
    · rintro ⟨inside, free⟩
      have undeclared : c.parameters.contains name = false := by
        rw [Bool.eq_false_iff]
        intro declared
        simp [isNone_environment_of_declared bound declared] at free
      refine ⟨inside.resolve_right fun later => ?_, undeclared, ?_⟩
      · simp [collected name (mem_firstSeen.mpr later)] at free
      · rw [isNone_environment, Bool.and_eq_true] at free
        simpa using free.1
    · rintro ⟨selected, undeclared, unbound⟩
      have noDeclaration : c.parameters.find? name = none := by
        simpa [NameMap.contains] using undeclared
      exact ⟨.inl selected, by simp [isNone_environment, noDeclaration, unbound]⟩
  refine ⟨q, compiled, fun name named => ⟨?_, ?_⟩, mem, ?_⟩
  · simpa using collected name named
  · rw [reported, List.mem_filter, collected name named]
    simp
  · rw [CompiledQuery.isFullyBound, List.isEmpty_iff, List.eq_nil_iff_forall_not_mem]
    apply forall_congr'
    intro name
    rw [mem, not_and, not_and_or, Bool.not_eq_false, Bool.not_eq_false]

end Configuration

/-- The literal that stands for a parameter. -/
def Literal.ofParameter (name : String) : Literal := .string (Name.placeholder name)

/-- Rounded totals by kind and period. The period and the digits are left to parameters. -/
def totals : Select :=
  ⟨[⟨.raw "t.kind", none⟩,
    ⟨.call ⟨"DATE_TRUNC", [.literal (.ofParameter "grain"), .column "t.day"]⟩, none⟩,
    ⟨.call ⟨"SUM", [.call "ROUND" [.column "t.amount", .literal (.ofParameter "digits")]]⟩,
      some "total"⟩]⟩

/--
Totals over a range of days. The two parameters of the select list are not declared; the first day
stands in WHERE and again in HAVING.
-/
def totalsByPeriod : Configuration :=
  let ranged := (Configuration.start totals ⟨"transactions", some "t"⟩).withWhere (.condition
    ⟨.column "t.day", .between, .list [.ofParameter "from", .ofParameter "to"]⟩)
  let grouped := (ranged.withGroupBy ["t.kind"]).withHaving
    ⟨.call ⟨"MIN", [.column "t.day"]⟩, .equal, .scalar (.ofParameter "from")⟩
  (grouped.withParameter "from" (.ofRequired .date)).withParameter "to"
    (.ofOptional .date (some (.date ⟨2024, 12, 31, by decide⟩)))

theorem totals_built : totals.Built := by
  have rounded : Argument.Built
      (.call "ROUND" [.column "t.amount", .literal (.ofParameter "digits")]) := by
    have made : Call.make "ROUND" [.column "t.amount", .literal (.ofParameter "digits")] =
        .ok ⟨"ROUND", _⟩ := rfl
    exact .call (by simp [Argument.Built.literal, Argument.Built.column]) made
  have period : Call.Built ⟨"DATE_TRUNC", [.literal (.ofParameter "grain"), .column "t.day"]⟩ :=
    ⟨"DATE_TRUNC", [.literal (.ofParameter "grain"), .column "t.day"],
      by simp [Argument.Built.literal, Argument.Built.column], rfl⟩
  have total : Call.Built
      ⟨"SUM", [.call "ROUND" [.column "t.amount", .literal (.ofParameter "digits")]]⟩ :=
    ⟨"SUM", [.call "ROUND" [.column "t.amount", .literal (.ofParameter "digits")]],
      by simp [rounded], rfl⟩
  refine ⟨totals.fields, ?_, rfl⟩
  intro f mem
  simp only [totals, List.mem_cons, List.not_mem_nil, or_false] at mem
  rcases mem with rfl | rfl | rfl
  · exact ⟨.raw "t.kind", none, .raw _, rfl⟩
  · exact ⟨_, none, .call period, rfl⟩
  · exact ⟨_, some "total", .call total, rfl⟩

theorem totalsByPeriod_built : totalsByPeriod.Built := by
  have first : Call.Built ⟨"MIN", [.column "t.day"]⟩ :=
    ⟨"MIN", [.column "t.day"], by simp [Argument.Built.column], rfl⟩
  have range : Condition.Built
      ⟨.column "t.day", .between, .list [.ofParameter "from", .ofParameter "to"]⟩ :=
    ⟨.column "t.day", .between, .list [.ofParameter "from", .ofParameter "to"], .column _,
      .list _, rfl⟩
  have start : Condition.Built
      ⟨.call ⟨"MIN", [.column "t.day"]⟩, .equal, .scalar (.ofParameter "from")⟩ :=
    ⟨_, .equal, .scalar (.ofParameter "from"), .call first, .scalar _, rfl⟩
  have table : TableRef.Built ⟨"transactions", some "t"⟩ := ⟨"transactions", some "t", rfl⟩
  have ranged := (Configuration.Built.start totals_built table).predicate (.condition range)
  exact (((ranged.groupBy ["t.kind"]).having start).parameter "from" _).parameter "to" _

theorem totalsByPeriod_valid : totalsByPeriod.validate = .ok () := by decide

/-- A binding of the digits, and nothing else. -/
def twoDigits : Bindings := NameMap.empty.insert "digits" (.int 2)

/-- The period comes before the first day, which is reported once; the last day has a default. -/
theorem unresolved_compile_totalsByPeriod :
    totalsByPeriod.Built ∧ totalsByPeriod.validate = .ok () ∧
      ∃ q, totalsByPeriod.compile .default twoDigits = .ok q ∧
        q.unresolved = ["grain", "from"] := by
  refine ⟨totalsByPeriod_built, totalsByPeriod_valid, ?_⟩
  obtain ⟨q, compiled, reported⟩ := Configuration.unresolved_compile totalsByPeriod_built
    totalsByPeriod_valid .default twoDigits
  exact ⟨q, compiled, reported.trans (by decide)⟩

/-- The first day is the only parameter that is declared without a default. -/
theorem supplies_totalsByPeriod {bindings : Bindings} (first : bindings.contains "from" = true) :
    Configuration.Supplies bindings totalsByPeriod := by
  intro name p found noDefault
  have parameters : totalsByPeriod.parameters =
      (NameMap.empty.insert "from" (.ofRequired .date)).insert "to"
        (.ofOptional .date (some (.date ⟨2024, 12, 31, by decide⟩))) := rfl
  rw [parameters, NameMap.find?_insert, NameMap.find?_insert] at found
  split at found
  · cases found
    cases noDefault
  · split at found
    next same => rwa [← same]
    · cases found

/-- A first day for the range. -/
def newYear : Bindings :=
  NameMap.empty.insert "from" (.date ⟨2024, 1, 1, by decide⟩)

/-- With a period and a number of digits bound too, nothing is left open. -/
theorem isFullyBound_totalsByPeriod :
    let bindings := (newYear.insert "grain" (.string "month")).insert "digits" (.int 2)
    totalsByPeriod.Built ∧ totalsByPeriod.validate = .ok () ∧
      totalsByPeriod.parameters.isEmpty = false ∧
      Configuration.Supplies bindings totalsByPeriod ∧
      ∃ q, totalsByPeriod.compile .default bindings = .ok q ∧ q.isFullyBound = true := by
  intro bindings
  have first : bindings.contains "from" = true := rfl
  have bound := supplies_totalsByPeriod first
  have declares : totalsByPeriod.parameters.isEmpty = false := rfl
  obtain ⟨q, compiled, _, _, full⟩ := Configuration.mem_unresolved_compile totalsByPeriod_built
    totalsByPeriod_valid declares .default bound
  refine ⟨totalsByPeriod_built, totalsByPeriod_valid, declares, bound, q, compiled, full.mpr ?_⟩
  have selected : totalsByPeriod.select.placeholders = ["grain", "digits"] := by decide
  intro name named
  simp only [selected, List.mem_cons, List.not_mem_nil, or_false] at named
  rcases named with rfl | rfl <;> exact .inr rfl

/--
With the first day bound only, every declared parameter has a value, and yet the query is not fully
bound: the parameters of the select list reach the statement as they are.
-/
theorem totalsByPeriod_leftOpen :
    totalsByPeriod.Built ∧ totalsByPeriod.validate = .ok () ∧
      totalsByPeriod.parameters.isEmpty = false ∧
      Configuration.Supplies newYear totalsByPeriod ∧
      ∃ q, totalsByPeriod.compile .default newYear = .ok q ∧ q.isFullyBound = false ∧
        q.unresolved = ["grain", "digits"] ∧
        q.sql = "SELECT t.kind, DATE_TRUNC(\x7b\x7bgrain\x7d\x7d, t.day), " ++
          "SUM(ROUND(t.amount, \x7b\x7bdigits\x7d\x7d)) AS total FROM transactions t " ++
          "WHERE t.day BETWEEN '2024-01-01' AND '2024-12-31' GROUP BY t.kind " ++
          "HAVING MIN(t.day) = '2024-01-01'" := by
  refine ⟨totalsByPeriod_built, totalsByPeriod_valid, rfl, supplies_totalsByPeriod rfl, _,
    Configuration.compile_of_valid totalsByPeriod_valid .default newYear, ?_⟩
  decide +kernel

end RuleQuery
