/-
# Nothing is lost in a text

A configuration that can be stored is read back from its text, too. Its document has the keys of
every object in order, since each encoder lists them that way and the names of parameters are the
keys of a map. If there is no float in the configuration, every number in the document is an integer
of 64 bits, so the document can be found again in its text. What is left is the document, of which
nothing is lost; its containers only must not be nested deeper than the reader allows.

Floats are left aside: whether the digits of one lead back to it is no question of how documents are
laid out.
-/

import RuleQuery.Proofs.Document.RoundTrip
import RuleQuery.Proofs.Json.ReadBack

namespace RuleQuery

open RuleQuery.Json (Regular)

namespace Json.Regular

/-- The object of a node: its keys are some of those that the node may have, in their order. -/
theorem object_of_sublist (keys : List String) (sorted : keys.Pairwise (· < ·))
    {entries : List (String × Json)} (known : (entries.map Prod.fst).Sublist keys)
    (each : ∀ e ∈ entries, e.2.Regular) : Regular (.object entries) := by
  refine .object ?_ each
  exact List.pairwise_map.mp (sorted.sublist known)

theorem single (key : String) {v : Json} (regular : v.Regular) : Regular (.object [(key, v)]) := by
  refine .object (List.pairwise_singleton _ _) ?_
  intro e mem
  rw [List.mem_singleton.mp mem]
  exact regular

theorem ofString? (s : Option String) : (Json.ofString? s).Regular := by
  cases s with
  | none => exact .null
  | some s => exact .string s

/-- An array with one item for each node. -/
theorem map {α : Type} {encode : α → Json} {nodes : List α}
    (each : ∀ a ∈ nodes, (encode a).Regular) : Regular (.array (nodes.map encode)) := by
  refine .array fun v mem => ?_
  obtain ⟨a, there, rfl⟩ := List.mem_map.mp mem
  exact each a there

theorem ofStrings (texts : List String) : (Json.ofStrings texts).Regular :=
  .map fun s _ => .string s

end Json.Regular

/-- None of the literals is a float. -/
def Floatless (literals : List Literal) : Prop := ∀ x, .float x ∉ literals

theorem Floatless.of_subset {literals others : List Literal} (floatless : Floatless others)
    (sub : literals ⊆ others) : Floatless literals :=
  fun x mem => floatless x (sub mem)

theorem Literal.regular_encode {l : Literal} (floatless : ∀ x, l ≠ .float x) :
    l.encode.Regular := by
  cases l with
  | null => exact .null
  | bool b => exact .bool b
  | int n => exact .int (.inl (Number.isInt64_toInt n))
  | float x => exact absurd rfl (floatless x)
  | string s => exact .string s
  | date d => exact .single "date" (.string _)
  | timestamp t => exact .single "timestamp" (.string _)

theorem Call.regular_encodeWith (function : String) {args : List Json}
    (each : ∀ v ∈ args, v.Regular) : (encodeWith function args).Regular := by
  apply Regular.object_of_sublist ["args", "function"] (by decide) (.refl _)
  simp [Regular.array each, Regular.string]

namespace Argument

mutual

/-- Of the literals only a string has two forms among arguments, with its tag and without. -/
theorem regular_encode : (a : Argument) → Floatless a.literals → a.encode.Regular
  | .column name, _ => by
      rw [encode]
      exact .string name
  | .literal (.string s), _ => by
      rw [encode]
      split
      · exact .single "string" (.string _)
      · exact .string s
  | .literal .null, _ | .literal (.bool _), _ | .literal (.int _), _ | .literal (.date _), _
  | .literal (.timestamp _), _ => by
      rw [encode]
      · exact Literal.regular_encode nofun
      · exact nofun
  | .literal (.float x), floatless => absurd (List.mem_singleton.mpr rfl) (floatless x)
  | .call function args, floatless => by
      rw [encode]
      exact Call.regular_encodeWith function (regular_encodeAll args floatless)

theorem regular_encodeAll : (args : List Argument) → Floatless (literalsOf args) →
    ∀ v ∈ encodeAll args, v.Regular
  | [], _ => nofun
  | a :: args, floatless => by
      rw [literalsOf] at floatless
      rw [encodeAll]
      refine List.forall_mem_cons.mpr ⟨?_, ?_⟩
      · exact regular_encode a (floatless.of_subset (List.subset_append_left _ _))
      · exact regular_encodeAll args (floatless.of_subset (List.subset_append_right _ _))

end

end Argument

theorem Call.regular_encode {c : Call} (floatless : Floatless c.literals) : c.encode.Regular :=
  Argument.regular_encode c.toArgument floatless

theorem Field.regular_encode {field : Field} (floatless : Floatless field.literals) :
    field.encode.Regular := by
  cases field with
  | column name => exact .string name
  | call c => exact Call.regular_encode floatless

theorem Operand.regular_encode {v : Operand} (floatless : Floatless v.allLiterals) :
    v.encode.Regular := by
  cases v with
  | absent => exact .null
  | scalar l =>
      apply Literal.regular_encode
      rintro x rfl
      exact floatless x (List.mem_singleton.mpr rfl)
  | list items =>
      apply Regular.map
      intro l mem
      apply Literal.regular_encode
      rintro x rfl
      exact floatless x mem
  | call c => exact Call.regular_encode floatless

theorem Condition.regular_encode {c : Condition} (floatless : Floatless c.literals) :
    c.encode.Regular := by
  have field : c.field.encode.Regular :=
    Field.regular_encode (floatless.of_subset (List.subset_append_left _ _))
  have value : c.value.encode.Regular :=
    Operand.regular_encode (floatless.of_subset (List.subset_append_right _ _))
  apply Regular.object_of_sublist ["field", "operator", "value"] (by decide) (.refl _)
  simp [field, value, Regular.string]

theorem Floatless.conditions {conditions : List Condition}
    (floatless : Floatless (conditions.flatMap Condition.literals)) :
    ∀ c ∈ conditions, c.encode.Regular := by
  intro c mem
  apply Condition.regular_encode
  exact floatless.of_subset fun l leaf => List.mem_flatMap.mpr ⟨c, mem, leaf⟩

namespace Predicate

mutual

theorem regular_encode : (p : Predicate) → (∀ c ∈ p.conditions, c.encode.Regular) →
    p.encode.Regular
  | .condition c, each => by
      rw [encode]
      exact each c (by simp [conditions])
  | .group connective members, each => by
      rw [conditions] at each
      rw [encode]
      apply Regular.object_of_sublist ["conditions", "logical_operator"] (by decide) (.refl _)
      simp [Regular.array (regular_encodeAll members each), Regular.string]

theorem regular_encodeAll : (ps : List Predicate) → (∀ c ∈ conditionsOf ps, c.encode.Regular) →
    ∀ v ∈ encodeAll ps, v.Regular
  | [], _ => nofun
  | p :: ps, each => by
      rw [conditionsOf] at each
      obtain ⟨first, later⟩ := List.forall_mem_append.mp each
      rw [encodeAll]
      exact List.forall_mem_cons.mpr ⟨regular_encode p first, regular_encodeAll ps later⟩

end

end Predicate

theorem WhereClause.regular_encode {w : WhereClause} (floatless : Floatless w.literals) :
    w.encode.Regular :=
  .single "where" (.array (Predicate.regular_encodeAll w.members floatless.conditions))

theorem TableRef.regular_encode (t : TableRef) : t.encode.Regular := by
  apply Regular.object_of_sublist ["alias", "name"] (by decide) (.refl _)
  simp [Regular.ofString?, Regular.string]

theorem Join.regular_encode (j : Join) : j.encode.Regular := by
  apply Regular.object_of_sublist ["alias", "on", "table", "type", "use_as"] (by decide) (.refl _)
  simp [Regular.ofString?, Regular.string, Regular.bool]

theorem SelectField.regular_encode {field : SelectField} (floatless : Floatless field.literals) :
    field.encode.Regular := by
  have selected : field.expression.encode.Regular := by
    obtain ⟨expression, aliasName⟩ := field
    cases expression with
    | raw text => exact .string text
    | call c => exact Call.regular_encode floatless
  apply Regular.object_of_sublist ["alias", "expression"] (by decide) (.refl _)
  simp [selected, Regular.ofString?]

theorem Select.regular_encode {s : Select} (floatless : Floatless s.literals) :
    s.encode.Regular := by
  apply Regular.single "fields"
  apply Regular.map
  intro field mem
  apply SelectField.regular_encode
  exact floatless.of_subset fun l leaf => List.mem_flatMap.mpr ⟨field, mem, leaf⟩

/-- Of an entry that may be missing there is at most the key. -/
theorem Parameter.keys_optionalEntry (key : String) (v : Option Json) :
    ((optionalEntry key v).map Prod.fst).Sublist [key] := by
  cases v with
  | none => exact List.nil_sublist _
  | some v => exact .refl _

theorem Parameter.regular_encode {p : Parameter}
    (floatless : ∀ l, p.default = some l → ∀ x, l ≠ .float x) : p.encode.Regular := by
  apply Regular.object_of_sublist
    (["default"] ++ ["description"] ++ ["required", "type"] ++ ["values"]) (by decide)
  · simp only [List.map_append]
    exact (((keys_optionalEntry _ _).append (keys_optionalEntry _ _)).append (.refl _)).append
      (keys_optionalEntry _ _)
  · intro e mem
    simp only [optionalEntry, List.mem_append, List.mem_map, Option.mem_toList, List.mem_cons,
      List.not_mem_nil, or_false] at mem
    rcases mem with ((⟨v, given, rfl⟩ | ⟨v, given, rfl⟩) | rfl | rfl) | ⟨v, given, rfl⟩
    · obtain ⟨l, default, rfl⟩ := Option.map_eq_some_iff.mp given
      exact Literal.regular_encode (floatless l default)
    · obtain ⟨s, _, rfl⟩ := Option.map_eq_some_iff.mp given
      exact .string s
    · exact .bool _
    · exact .string _
    · obtain ⟨texts, _, rfl⟩ := Option.map_eq_some_iff.mp given
      exact .ofStrings texts

theorem Declarations.regular_encode {declared : Declarations}
    (each : ∀ e ∈ declared.entries, e.2.encode.Regular) : (encode declared).Regular := by
  refine .object ?_ ?_
  · exact List.pairwise_map.mpr declared.increasing
  · intro e mem
    obtain ⟨declaration, there, rfl⟩ := List.mem_map.mp mem
    exact each declaration there

namespace Configuration

/-- The document of a configuration without floats can be found again in its text. -/
theorem regular_encode {c : Configuration} (floatless : Floatless c.literals) :
    c.encode.Regular := by
  have statement : Floatless c.statementLiterals :=
    floatless.of_subset (List.subset_append_left _ _)
  have select : c.select.encode.Regular := Select.regular_encode
    (statement.of_subset fun l mem => List.mem_append_left _ (List.mem_append_left _ mem))
  have where_ : c.conditions.encode.Regular := WhereClause.regular_encode
    (statement.of_subset fun l mem => List.mem_append_left _ (List.mem_append_right _ mem))
  have having : Regular (.array (c.having.map Condition.encode)) :=
    .map (statement.of_subset (List.subset_append_right _ _)).conditions
  have joins : Regular (.array (c.joins.map Join.encode)) := .map fun j _ => j.regular_encode
  have parameters : (Declarations.encode c.parameters).Regular := by
    apply Declarations.regular_encode
    intro e mem
    apply Parameter.regular_encode
    rintro l default x rfl
    exact floatless x (List.mem_append_right _ (List.mem_filterMap.mpr ⟨e, mem, default⟩))
  apply Regular.object_of_sublist (["conditions", "from_table", "group_by", "having", "joins",
    "order_by"] ++ ["parameters"] ++ ["select"]) (by decide)
  · simp only [List.map_append]
    refine ((List.Sublist.refl _).append ?_).append (.refl _)
    split
    · exact List.nil_sublist _
    · exact .refl _
  · split <;>
      simp [where_, having, joins, parameters, select, c.table.regular_encode, Regular.ofStrings]

/--
A configuration is read back from its text: if it has no floats, its timestamps are whole seconds,
its defaults are kept, and its document is not nested too deeply.
-/
theorem ofText_toText {c : Configuration} (built : c.Built)
    (storable : Storable c.statementLiterals)
    (keeps : ∀ e ∈ c.parameters.entries, e.2.KeepsDefault) (floatless : Floatless c.literals)
    (shallow : c.encode.depth ≤ Json.depthLimit) : ofText c.toText = .ok c := by
  have document : Json.read? c.toText = some c.encode :=
    Json.readWithin?_pretty (regular_encode floatless) shallow
  have configuration : decode c.encode = .ok c := built.decode_encode storable keeps
  rw [ofText, document]
  simp only [ofDocument, configuration]
  rfl

end Configuration

/-- A text that needs quotes, a backslash, control characters and characters beyond ASCII. -/
def awkwardText : String := "\"\\\t\r\x01\x7f — é 😀"

/-- The notes with an awkward text, which is also the name of a parameter and its default. -/
def awkwardNotes : Configuration :=
  ((Configuration.start ⟨[⟨.raw "id", none⟩]⟩ ⟨"notes", none⟩).withWhere
    (.condition ⟨.column "note", .equal, .scalar (.string awkwardText)⟩)).withParameter awkwardText
      (.ofOptional .string (some (.string awkwardText)))

theorem awkwardNotes_built : awkwardNotes.Built := by
  have note : Condition.Built ⟨.column "note", .equal, .scalar (.string awkwardText)⟩ :=
    ⟨.column "note", .equal, .scalar (.string awkwardText), .column _, .scalar _, rfl⟩
  have select : Select.Built ⟨[⟨.raw "id", none⟩]⟩ := .single ⟨.raw "id", none, .raw "id", rfl⟩
  have start := Configuration.Built.start select ⟨"notes", none, rfl⟩
  exact (start.predicate (.condition note)).parameter awkwardText _

theorem awkwardNotes_storable : Storable awkwardNotes.statementLiterals := by
  have literals : awkwardNotes.statementLiterals = [.string awkwardText] := rfl
  intro l mem
  rw [literals] at mem
  rw [List.mem_singleton.mp mem]
  exact .of_kind trivial nofun

theorem awkwardNotes_keepsDefault :
    ∀ e ∈ awkwardNotes.parameters.entries, e.2.KeepsDefault := by
  intro e mem l given
  rw [List.mem_singleton.mp mem] at given ⊢
  cases given
  exact ⟨.of_kind trivial nofun, nofun, nofun⟩

theorem ofText_toText_awkwardNotes :
    awkwardNotes.Built ∧ Storable awkwardNotes.statementLiterals ∧
      (∀ e ∈ awkwardNotes.parameters.entries, e.2.KeepsDefault) ∧
      Floatless awkwardNotes.literals ∧ awkwardNotes.encode.depth ≤ Json.depthLimit ∧
      Configuration.ofText awkwardNotes.toText = .ok awkwardNotes := by
  have floatless : Floatless awkwardNotes.literals := by
    have literals : awkwardNotes.literals = [.string awkwardText, .string awkwardText] := rfl
    intro x mem
    simp [literals] at mem
  have shallow : awkwardNotes.encode.depth ≤ Json.depthLimit := by decide
  exact ⟨awkwardNotes_built, awkwardNotes_storable, awkwardNotes_keepsDefault, floatless, shallow,
    Configuration.ofText_toText awkwardNotes_built awkwardNotes_storable awkwardNotes_keepsDefault
      floatless shallow⟩

end RuleQuery
