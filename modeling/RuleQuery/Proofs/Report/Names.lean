/-
# Names that the check of a statement takes for names

A name goes into a statement as it is, and the check reads it word by word, with the points between
its parts as symbols. A tame name has no part that starts with a digit and none that is a reserved
word, and so it is never taken for anything but a name. `Configuration.names` lists the names of a
configuration, and `Configuration.WrittenInNames` says that the texts which are SQL as they stand
are made of names too.
-/

import RuleQuery.Proofs.Lexeme.Plain
import RuleQuery.Proofs.Literals
import RuleQuery.Proofs.Report.Calm

namespace RuleQuery

open Sql (Token tokens Flat)

namespace Name

/-- A part that neither starts with a digit nor is a reserved word. -/
def isTamePart (part : List Char) : Bool :=
  !part.head?.any Char.isDigit && !Sql.reservedWords.any (Text.sameLetters (String.ofList part))

/-- A name all parts of which, between its points, are tame. -/
def isTame (name : String) : Bool := (name.toList.splitOn '.').all isTamePart

theorem isTamePart_of_mem {name : String} (tame : isTame name = true) {part : List Char}
    (mem : part ∈ name.toList.splitOn '.') : isTamePart part = true :=
  List.all_eq_true.mp tame part mem

/-- A word that is neither numbered nor reserved is calm. -/
theorem isFlat_word {w : String} (unnumbered : Sql.isNumberedName w = false)
    (free : Sql.reservedWords.any (Text.sameLetters w) = false) : (Token.word w).isFlat = true := by
  have single : Text.sameLetters w "SELECT" = false := by
    simpa using List.any_eq_false.mp free "SELECT" (by decide)
  have reserved : (Token.word w).isAnyKeyword Sql.reservedWords = false := free
  simp [Token.isFlat, Token.isCalm, Token.isHarmless, unnumbered, single, reserved]

/-- The word of a tame part is calm. -/
theorem isFlat_of_isTamePart {part : List Char} (nonempty : part ≠ [])
    (tame : isTamePart part = true) : (Token.word (String.ofList part)).isFlat = true := by
  obtain ⟨c, cs, rfl⟩ := List.exists_cons_of_ne_nil nonempty
  simp only [isTamePart, List.head?_cons, Option.any_some, Bool.and_eq_true,
    Bool.not_eq_true'] at tame
  obtain ⟨notDigit, free⟩ := tame
  refine isFlat_word ?_ free
  rw [Sql.isNumberedName, String.toList_ofList]
  simp [notDigit]

/-- A digit starts no reserved word. -/
theorem free_of_isDigit {d : Char} {ds : List Char} (digit : d.isDigit = true) :
    Sql.reservedWords.any (Text.sameLetters (String.ofList (d :: ds))) = false := by
  have range := Char.isDigit_iff_toNat.mp digit
  have below : d.toNat ≤ 57 := range.2
  have raised : d.toUpper = d := toUpper_of_not_lower (by omega)
  refine List.any_eq_false.mpr fun keyword mem same => ?_
  have heads := congrArg (fun s => s.toList.head?) (beq_iff_eq.mp same)
  simp only [Text.upperAscii, String.toList_ofList, List.map_cons, raised, List.head?_cons] at heads
  have letters : ∀ keyword ∈ Sql.reservedWords,
      ((String.ofList (keyword.toList.map Char.toUpper)).toList.head?).all
        fun c => 57 < c.toNat := by
    decide
  have letter := letters keyword mem
  rw [String.toList_ofList, ← heads, Option.all_some, decide_eq_true_eq] at letter
  omega

/-- A word of digits is a number. -/
theorem isFlat_of_isDigit {ds : List Char} (nonempty : ds ≠ [])
    (digits : ∀ c ∈ ds, c.isDigit = true) : (Token.word (String.ofList ds)).isFlat = true := by
  obtain ⟨d, ds, rfl⟩ := List.exists_cons_of_ne_nil nonempty
  refine isFlat_word ?_ (free_of_isDigit (digits d (by simp)))
  have none : (d :: ds).any (fun c => Text.isAlphabetic c || c == '_') = false := by
    refine List.any_eq_false.mpr fun c mem => ?_
    have range := Char.isDigit_iff_toNat.mp (digits c mem)
    have bounds : 48 ≤ c.toNat ∧ c.toNat ≤ 57 := range
    have alphabetic := Text.isAlphabetic_of_lt (c := c) (by omega)
    have letter : c.isAlpha = false := by
      rw [Bool.eq_false_iff, Ne, isAlpha_iff_toNat]
      omega
    have underscore : c ≠ '_' := by
      rintro rfl
      exact absurd bounds (by decide)
    simp [alphabetic, letter, underscore]
  rw [Sql.isNumberedName, String.toList_ofList]
  simp only [none, Bool.and_false]

/-- An identifier starts with no digit. -/
theorem isNumberedName_of_isIdentifier {s : String} (identifier : isIdentifier s = true) :
    Sql.isNumberedName s = false := by
  rw [Sql.isNumberedName]
  cases chars : s.toList with
  | nil => rfl
  | cons c cs =>
      simp only [isIdentifier, chars, isIdentifierChars, Bool.and_eq_true] at identifier
      simp only [isDigit_of_isStart identifier.1, Bool.false_and]

/-- A function in upper case is a calm word if its name is tame. -/
theorem isFlat_function {function : String} (identifier : isIdentifier function = true)
    (tame : isTame function = true) : (Token.word (Text.upperAscii function)).isFlat = true := by
  have whole : function.toList.splitOn '.' = [function.toList] :=
    List.splitOn_eq_singleton fun mem => absurd (isPart_of_mem identifier '.' mem) (by decide)
  have part : isTamePart function.toList = true := isTamePart_of_mem tame (by simp [whole])
  refine isFlat_word (isNumberedName_of_isIdentifier (isIdentifier_upperAscii identifier)) ?_
  simp only [isTamePart, String.ofList_toList, Bool.and_eq_true, Bool.not_eq_true'] at part
  have same : Text.sameLetters (Text.upperAscii function) = Text.sameLetters function := by
    funext keyword
    rw [Text.sameLetters, upperAscii_upperAscii, Text.sameLetters]
  rw [same]
  exact part.2

/-- A token that a name may have. -/
def IsNameToken (t : Token) : Prop := t.isFlat = true ∧ t ≠ .comma

instance (t : Token) : Decidable (IsNameToken t) :=
  inferInstanceAs (Decidable (t.isFlat = true ∧ t ≠ .comma))

theorem isNameToken_of_dotted {cs : List Char} (dotted : isDottedChars cs = true)
    (tame : ∀ part ∈ cs.splitOn '.', isTamePart part = true) : ∀ t ∈ tokens cs, IsNameToken t := by
  intro t mem
  rcases Sql.mem_tokens_of_dotted (isDottedPart_of_mem dotted) mem with
    rfl | ⟨part, split, nonempty, rfl⟩
  · exact ⟨by decide, nofun⟩
  · exact ⟨isFlat_of_isTamePart nonempty (tame part split), nofun⟩

/-- The tokens of a tame name are words and points. -/
theorem isNameToken_of_isDotted {s : String} (dotted : isDotted s = true)
    (tame : isTame s = true) : ∀ t ∈ tokens s.toList, IsNameToken t :=
  isNameToken_of_dotted dotted fun _ mem => isTamePart_of_mem tame mem

theorem tokens_star : tokens ['*'] = [.symbol '*'] := by
  rw [Sql.tokens_plain (by decide), Sql.tokens_nil]
  rfl

/-- The tokens of a column reference may have a star among them. -/
theorem flat_of_isColumnReference {s : String} (reference : isColumnReference s = true)
    (tame : isTame s = true) : Flat (tokens s.toList) := by
  rcases columnReference_cases reference with dotted | star | ⟨q, dotted, qualified⟩
  · exact fun t mem => (isNameToken_of_isDotted dotted tame t mem).1
  · rw [star, tokens_star]
    decide
  · have parts (part : List Char) (mem : part ∈ q.splitOn '.') : isTamePart part = true := by
      refine isTamePart_of_mem tame ?_
      rw [qualified, List.splitOn_append_cons_self]
      exact List.mem_append_left _ mem
    have apart : Sql.Apart q ['.', '*'] := .inr (by decide)
    have star : Flat (tokens ['.', '*']) := by
      rw [Sql.tokens_plain (by decide), tokens_star]
      decide
    rw [qualified, Sql.tokens_append (fixed_of_isDottedChars dotted).plain apart]
    exact Flat.append (fun t mem => (isNameToken_of_dotted dotted parts t mem).1) star

/-- A name is not nothing. -/
theorem tokens_ne_nil {cs : List Char} (dotted : isDottedChars cs = true) (rest : List Char) :
    tokens (cs ++ rest) ≠ [] := by
  cases cs with
  | nil => simp [isDottedChars] at dotted
  | cons c cs =>
      simp only [isDottedChars, Bool.and_eq_true] at dotted
      have part := isPart_of_isStart dotted.1
      rw [List.cons_append, Sql.tokens_word (Sql.isWordChar_of_isPart part)
        (unquoted_of_isPlain (isPlain_of_isFixed (isFixed_of_isPart part)))]
      exact List.cons_ne_nil _ _

theorem flat_of_isDotted {s : String} (dotted : isDotted s = true) (tame : isTame s = true) :
    Flat (tokens s.toList) := fun t mem => (isNameToken_of_isDotted dotted tame t mem).1

theorem calm_of_isDotted {s : String} (dotted : isDotted s = true) (tame : isTame s = true) :
    Sql.Calm (tokens s.toList) := by
  refine .of_flat (flat_of_isDotted dotted tame) ?_
  simpa using tokens_ne_nil dotted []

/-- An identifier is a dotted name without points. -/
theorem flat_of_isIdentifier {s : String} (identifier : isIdentifier s = true)
    (tame : isTame s = true) : Flat (tokens s.toList) :=
  flat_of_isDotted (isDottedChars_of_isIdentifierChars identifier) tame

theorem calm_of_isColumnReference {s : String} (reference : isColumnReference s = true)
    (tame : isTame s = true) : Sql.Calm (tokens s.toList) := by
  refine .of_flat (flat_of_isColumnReference reference tame) ?_
  rcases columnReference_cases reference with dotted | star | ⟨q, dotted, qualified⟩
  · simpa using tokens_ne_nil dotted []
  · rw [star, tokens_star]
    decide
  · rw [qualified]
    exact tokens_ne_nil dotted _

end Name

/-! ## The names of a configuration -/

namespace Argument

mutual

/-- The columns and functions of an argument, from left to right. -/
def names : Argument → List String
  | .literal _ => []
  | .column name => [name]
  | .call function args => function :: namesOf args

def namesOf : List Argument → List String
  | [] => []
  | a :: as => a.names ++ namesOf as

end

theorem mem_namesOf {name : String} {args : List Argument} :
    name ∈ namesOf args ↔ ∃ a ∈ args, name ∈ a.names := by
  induction args with
  | nil => simp [namesOf]
  | cons a args ih => simp [namesOf, ih]

end Argument

def Call.names (c : Call) : List String := c.toArgument.names

def Field.names : Field → List String
  | .column name => [name]
  | .call c => c.names

def Operand.names : Operand → List String
  | .call c => c.names
  | _ => []

def Condition.names (c : Condition) : List String := c.field.names ++ c.value.names

def Selected.names : Selected → List String
  | .raw text => [text]
  | .call c => c.names

def SelectField.names (f : SelectField) : List String := f.expression.names ++ f.aliasName.toList

def TableRef.names (t : TableRef) : List String := t.name :: t.aliasName.toList

def Join.names (j : Join) : List String := j.table :: j.aliasName.toList

namespace Configuration

/--
The names of a configuration: selected columns, aliases, tables, the columns and functions of calls
and conditions, grouping entries, and the parameters that its literals stand for.
-/
def names (c : Configuration) : List String :=
  c.select.fields.flatMap SelectField.names ++ c.table.names ++ c.joins.flatMap Join.names
    ++ c.conditions.conditions.flatMap Condition.names ++ c.having.flatMap Condition.names
    ++ c.groupBy ++ c.statementLiterals.filterMap Literal.placeholder?

/-- The texts that are SQL as they stand are made of names, and all names are tame. -/
structure WrittenInNames (c : Configuration) : Prop where
  selected : ∀ f ∈ c.select.fields, ∀ text, f.expression = .raw text →
    Name.isColumnReference text = true
  joined : ∀ j ∈ c.joins, ∃ left right, j.condition = left ++ " = " ++ right ∧
    ∀ name ∈ [left, right], Name.isDotted name = true ∧ Name.isTame name = true
  grouped : ∀ entry ∈ c.groupBy, Name.isDotted entry = true
  ordered : ∀ entry ∈ c.orderBy, ∃ name, Name.isDotted name = true ∧ Name.isTame name = true ∧
    entry ∈ [name, name ++ " ASC", name ++ " DESC"]
  tame : ∀ name ∈ c.names, Name.isTame name = true

namespace WrittenInNames

variable {c : Configuration} (named : c.WrittenInNames)

include named

theorem tame_field {f : SelectField} (field : f ∈ c.select.fields) :
    ∀ name ∈ f.names, Name.isTame name = true := by
  intro name mem
  have inside := List.mem_flatMap.mpr ⟨f, field, mem⟩
  exact named.tame name (by simp only [names, List.mem_append, inside, true_or])

theorem tame_table : ∀ name ∈ c.table.names, Name.isTame name = true := fun name inside =>
  named.tame name (by simp only [names, List.mem_append, inside, true_or, or_true])

theorem tame_join {j : Join} (join : j ∈ c.joins) : ∀ name ∈ j.names, Name.isTame name = true := by
  intro name mem
  have inside := List.mem_flatMap.mpr ⟨j, join, mem⟩
  exact named.tame name (by simp only [names, List.mem_append, inside, true_or, or_true])

theorem tame_condition {condition : Condition}
    (member : condition ∈ c.conditions.conditions ++ c.having) :
    ∀ name ∈ condition.names, Name.isTame name = true := by
  intro name mem
  have inside := List.mem_flatMap.mpr ⟨condition, member, mem⟩
  rw [List.flatMap_append, List.mem_append] at inside
  refine named.tame name ?_
  simp only [names, List.mem_append]
  tauto

theorem tame_grouping {entry : String} (member : entry ∈ c.groupBy) : Name.isTame entry = true :=
  named.tame entry (by simp only [names, List.mem_append, member, true_or, or_true])

end WrittenInNames

end Configuration

end RuleQuery
