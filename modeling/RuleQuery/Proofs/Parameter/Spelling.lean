/-
# How a given value is spelled

Texts come in for parameters from outside, declared or not, and the values read from them are copied
into the statement. What may be copied is an SQL literal: a string in quotes, a truth value, or a
numeral. A word without quotes would be read as the name of a column.

Strings, dates and timestamps are quoted whatever they are, and every finite number is written with
digits. The reader of doubles also takes words for infinity and for NaN, and reads a number too
large for the format as infinity; those values have no digits and are written as words. They are the
only ones, as the main statement says.
-/

import RuleQuery.Command.Run
import RuleQuery.Proofs.Document.Tree
import RuleQuery.Proofs.Injection.Fragment
import RuleQuery.Proofs.Parameter.Value

namespace RuleQuery

/-! ## Literals of SQL -/

namespace Sql

/-- What stands between the quotes of a string: every quote is doubled. -/
inductive IsQuotedBody : List Char → Prop
  | nil : IsQuotedBody []
  | char {c cs} (other : c ≠ '\'') (rest : IsQuotedBody cs) : IsQuotedBody (c :: cs)
  | quote {cs} (rest : IsQuotedBody cs) : IsQuotedBody ('\'' :: '\'' :: cs)

/-- One or more digits. -/
def IsDigits (cs : List Char) : Prop :=
  cs ≠ [] ∧ ∀ c ∈ cs, c.isDigit = true

/-- Nothing, or a point with digits behind it. -/
inductive IsFraction : List Char → Prop
  | none : IsFraction []
  | digits {ds} (digits : IsDigits ds) : IsFraction ('.' :: ds)

/-- Nothing, or digits behind the letter of an exponent and an optional sign. -/
inductive IsExponent : List Char → Prop
  | none : IsExponent []
  | digits {e sign ds} (letter : e = 'e' ∨ e = 'E') (signed : sign ∈ [[], ['-'], ['+']])
      (digits : IsDigits ds) : IsExponent (e :: (sign ++ ds))

/-- A numeral without a sign. -/
inductive IsUnsigned : List Char → Prop
  | parts {whole fraction exponent : List Char} (digits : IsDigits whole)
      (decimals : IsFraction fraction) (power : IsExponent exponent) :
      IsUnsigned (whole ++ (fraction ++ exponent))

/-- An optional minus sign, digits, an optional fraction and an optional exponent. -/
inductive IsNumeral : List Char → Prop
  | unsigned {cs} (magnitude : IsUnsigned cs) : IsNumeral cs
  | minus {cs} (magnitude : IsUnsigned cs) : IsNumeral ('-' :: cs)

/-- The values that SQL spells out: strings, truth values and numerals. -/
inductive IsLiteral : List Char → Prop
  | string {body : List Char} (closed : IsQuotedBody body) : IsLiteral ('\'' :: body ++ ['\''])
  | trueWord : IsLiteral ['T', 'R', 'U', 'E']
  | falseWord : IsLiteral ['F', 'A', 'L', 'S', 'E']
  | numeral {cs : List Char} (number : IsNumeral cs) : IsLiteral cs

/-- A name, qualified or not, that is none of the truth values: SQL takes it for a column. -/
def IsBareWord (cs : List Char) : Prop :=
  Name.isDottedChars cs = true ∧ cs ≠ ['T', 'R', 'U', 'E'] ∧ cs ≠ ['F', 'A', 'L', 'S', 'E']

variable {cs : List Char}

/-- Doubling the quotes is what makes any text fit between quotes. -/
theorem isQuotedBody_doubleQuotes (cs : List Char) : IsQuotedBody (Literal.doubleQuotes cs) := by
  induction cs with
  | nil => exact .nil
  | cons c cs ih =>
      rw [Literal.doubleQuotes, List.flatMap_cons]
      by_cases quote : c = '\''
      · rw [if_pos quote]
        exact .quote ih
      · rw [if_neg quote]
        exact .char quote ih

/-- A numeral starts with a digit, after its sign. -/
theorem IsUnsigned.exists_cons (h : IsUnsigned cs) :
    ∃ c rest, cs = c :: rest ∧ c.isDigit = true := by
  obtain ⟨⟨nonempty, digits⟩, _, _⟩ := h
  obtain ⟨c, rest, rfl⟩ := List.exists_cons_of_ne_nil nonempty
  exact ⟨c, _, rfl, digits c List.mem_cons_self⟩

theorem IsNumeral.exists_digit (h : IsNumeral cs) : ∃ c ∈ cs, c.isDigit = true := by
  cases h with
  | unsigned magnitude | minus magnitude =>
      obtain ⟨c, rest, rfl, digit⟩ := magnitude.exists_cons
      exact ⟨c, by simp, digit⟩

/-- No name starts like a numeral. -/
theorem IsNumeral.isDottedChars_eq_false (h : IsNumeral cs) : Name.isDottedChars cs = false := by
  cases h with
  | minus magnitude => rfl
  | unsigned magnitude =>
      obtain ⟨c, rest, rfl, digit⟩ := magnitude.exists_cons
      have start : Name.isStart c = false := by
        rw [Bool.eq_false_iff]
        intro start
        exact Bool.false_ne_true ((Name.isDigit_of_isStart start).symm.trans digit)
      rw [Name.isDottedChars, start, Bool.false_and]

theorem IsLiteral.not_isBareWord (h : IsLiteral cs) : ¬ IsBareWord cs := by
  rintro ⟨dotted, notTrue, notFalse⟩
  cases h with
  | string => cases dotted
  | trueWord => exact notTrue rfl
  | falseWord => exact notFalse rfl
  | numeral numeral => exact Bool.false_ne_true (numeral.isDottedChars_eq_false.symm.trans dotted)

/-- A character without which there is no string and no numeral. -/
def isMark (c : Char) : Bool :=
  c == '\'' || c.isDigit

/-- A literal that is none of the truth values has a quote or a digit in it. -/
theorem IsLiteral.exists_mark (h : IsLiteral cs) :
    cs = ['T', 'R', 'U', 'E'] ∨ cs = ['F', 'A', 'L', 'S', 'E'] ∨ cs.any isMark = true := by
  cases h with
  | string => exact .inr (.inr (by simp [isMark]))
  | trueWord => exact .inl rfl
  | falseWord => exact .inr (.inl rfl)
  | numeral numeral =>
      obtain ⟨c, mem, digit⟩ := numeral.exists_digit
      exact .inr (.inr (List.any_eq_true.mpr ⟨c, mem, by simp [isMark, digit]⟩))

end Sql

/-! ## Numbers -/

namespace Number

open Sql

theorem isDigits_digits (n : Nat) : IsDigits (digits n) :=
  ⟨digits_ne_nil n, fun _ => isDigit_of_mem_digits⟩

theorem isNumeral_signed {cs : List Char} (negative : Bool) (magnitude : IsUnsigned cs) :
    IsNumeral ((if negative = true then ['-'] else []) ++ cs) := by
  cases negative with
  | false => exact .unsigned magnitude
  | true => exact .minus magnitude

theorem isNumeral_integerText (n : Int) : IsNumeral (integerText n).toList := by
  have whole : IsUnsigned (digits n.natAbs) := by
    simpa using IsUnsigned.parts (isDigits_digits n.natAbs) .none .none
  have signed := isNumeral_signed (decide (n < 0)) whole
  simpa [integerText] using signed

namespace Layout

/-- Positional text has a digit on either side of its point. -/
theorem isUnsigned_positional (d : Decimal) : IsUnsigned (positional d) := by
  have zero : ∀ n, ∀ c ∈ List.replicate n '0', c.isDigit = true := fun _ c mem =>
    List.eq_of_mem_replicate mem ▸ rfl
  obtain ⟨nonempty, digit⟩ := isDigits_digits d.coefficient
  simp only [positional]
  split
  · have whole : IsDigits (digits d.coefficient ++ List.replicate d.exponent.toNat '0') :=
      ⟨by simp [nonempty], List.forall_mem_append.mpr ⟨digit, zero _⟩⟩
    have tenth : IsDigits ['0'] := by simp [IsDigits]
    simpa using IsUnsigned.parts whole (.digits tenth) .none
  next small =>
    -- the padding leaves a digit in front of the point, however far the point is to the left
    generalize places_eq : (-d.exponent).toNat = places
    generalize padded_eq :
      List.replicate (places + 1 - (digits d.coefficient).length) '0' ++ digits d.coefficient =
        padded
    have longer : places < padded.length := by
      rw [← padded_eq, List.length_append, List.length_replicate]
      omega
    have digits : ∀ c ∈ padded, c.isDigit = true :=
      padded_eq ▸ List.forall_mem_append.mpr ⟨zero _, digit⟩
    have whole : IsDigits (padded.take (padded.length - places)) :=
      ⟨List.ne_nil_of_length_pos (by rw [List.length_take]; omega),
        fun c mem => digits c (List.mem_of_mem_take mem)⟩
    have fraction : IsDigits (padded.drop (padded.length - places)) :=
      ⟨List.ne_nil_of_length_pos (by rw [List.length_drop]; omega),
        fun c mem => digits c (List.mem_of_mem_drop mem)⟩
    simpa using IsUnsigned.parts whole (.digits fraction) .none

/-- Scientific text has one digit in front of its point, and an exponent. -/
theorem isUnsigned_scientific (layout : Layout) (d : Decimal) :
    IsUnsigned (layout.scientific d) := by
  have exponent (power : Int) : IsExponent ('e' ::
      ((if power < 0 then ['-'] else if layout.plusSign then ['+'] else []) ++
        digits power.natAbs)) := by
    refine .digits (.inl rfl) ?_ (isDigits_digits _)
    split
    · simp
    · split <;> simp
  obtain ⟨nonempty, digit⟩ := isDigits_digits d.coefficient
  simp only [scientific, List.append_assoc, List.cons_append]
  generalize digits d.coefficient = ds at nonempty digit ⊢
  rcases ds with _ | ⟨c, _ | ⟨c', rest⟩⟩
  · exact absurd rfl nonempty
  · exact .parts ⟨by simp, digit⟩ .none (exponent _)
  · obtain ⟨first, others⟩ := List.forall_mem_cons.mp digit
    have whole : IsDigits [c] := ⟨by simp, by simpa using first⟩
    exact .parts whole (.digits ⟨by simp, others⟩) (exponent _)

theorem isUnsigned_magnitude (layout : Layout) (m : Nat) (q : Int) :
    IsUnsigned (layout.magnitude m q) := by
  simp only [magnitude]
  split
  · exact isUnsigned_positional _
  · exact isUnsigned_scientific layout _

/-- The text of a double is a numeral if the double is finite, and a word or a signed word if not.
-/
theorem text_cases (layout : Layout) (x : Binary64) :
    x.isFinite = true ∧ IsNumeral (layout.text x).toList ∨
      x.isFinite = false ∧ layout.text x ∈ ["NaN", "inf", "-inf"] := by
  unfold Binary64.isFinite text
  cases x.view with
  | nan => exact .inr ⟨rfl, by simp⟩
  | infinite negative => exact .inr ⟨rfl, by cases negative <;> simp⟩
  | finite negative m q =>
      refine .inl ⟨rfl, ?_⟩
      rw [String.toList_ofList]
      apply isNumeral_signed
      split
      · have zero : IsDigits ['0'] := by simp [IsDigits]
        have parts := IsUnsigned.parts zero (.digits zero) .none
        simpa using parts
      · exact isUnsigned_magnitude layout m q

end Layout

end Number

/-! ## Values -/

namespace Literal

variable {l : Literal} {raw : String}

/-- What has neither a quote nor a digit in it, nor is a truth value, is no literal. -/
theorem not_isLiteral_word {s : String} (word : s ∈ ["NaN", "inf", "-inf"]) :
    ¬ Sql.IsLiteral s.toList := by
  intro literal
  have mark := literal.exists_mark
  simp only [List.mem_cons, List.not_mem_nil, or_false] at word
  rcases word with rfl | rfl | rfl <;> exact absurd mark (by decide)

/-- A value other than NULL is written as a literal of SQL, or else is a number without digits. -/
theorem sql_cases (present : l ≠ .null) :
    l.IsFinite ∧ Sql.IsLiteral l.sql.toList ∨
      ¬ l.IsFinite ∧ l.sql ∈ ["NaN", "inf", "-inf"] := by
  cases text : l.isText with
  | true =>
      obtain ⟨cs, chars⟩ := sql_of_isText text
      have finite : l.IsFinite := by cases l <;> trivial
      rw [chars]
      refine .inl ⟨finite, ?_⟩
      exact .string (Sql.isQuotedBody_doubleQuotes cs)
  | false =>
      cases l with
      | null => exact absurd rfl present
      | bool b =>
          cases b with
          | false => exact .inl ⟨trivial, .falseWord⟩
          | true => exact .inl ⟨trivial, .trueWord⟩
      | int n => exact .inl ⟨trivial, .numeral (Number.isNumeral_integerText n.toInt)⟩
      | float x =>
          rcases Number.Layout.text_cases .sql x with ⟨finite, numeral⟩ | ⟨special, word⟩
          · exact .inl ⟨finite, .numeral numeral⟩
          · exact .inr ⟨by simp [IsFinite, special], word⟩
      | _ => cases text

/-- A literal is obtained from a text: by a kind, by a declaration, or by the looks of the text. -/
inductive ObtainedFrom (raw : String) : Literal → Prop
  | parsed {kind : ParameterKind} {name : String} {l : Literal}
      (parsed : kind.parse name raw = .ok l) : ObtainedFrom raw l
  | bound {p : Parameter} {name : String} {l : Literal}
      (bound : p.bind name raw = .ok l) : ObtainedFrom raw l
  | inferred : ObtainedFrom raw (Command.inferLiteral raw)

/-- A kind reads no NULL, and reads a double with the reader of doubles. -/
theorem of_readValue? {kind : ParameterKind} (read : kind.readValue? raw = some l) :
    l ≠ .null ∧ ∀ x, l = .float x → Number.readBinary64? raw = some x := by
  have holds := ParameterKind.holds_of_readValue? read
  constructor
  · rintro rfl
    cases kind <;> cases holds
  · rintro x rfl
    cases kind with
    | float =>
        obtain ⟨x', read, same⟩ := Option.map_eq_some_iff.mp read
        cases same
        exact read
    | _ => cases holds

theorem of_inferLiteral (raw : String) : Command.inferLiteral raw ≠ .null ∧
    ∀ x, Command.inferLiteral raw = .float x → Number.readBinary64? raw = some x := by
  unfold Command.inferLiteral
  cases Number.readInt64? raw with
  | some n => simp
  | none =>
      cases Number.readBinary64? raw with
      | some x => simp
      | none =>
          by_cases yes : raw = "true"
          · simp [yes]
          · by_cases no : raw = "false" <;> simp [yes, no]

theorem ObtainedFrom.reads (obtained : ObtainedFrom raw l) :
    l ≠ .null ∧ ∀ x, l = .float x → Number.readBinary64? raw = some x := by
  cases obtained with
  | parsed parsed => exact of_readValue? (ParameterKind.parse_eq_ok_iff.mp parsed)
  | bound bound => exact of_readValue? (Parameter.bind_eq_ok_iff.mp bound).2
  | inferred => exact of_inferLiteral raw

/--
A value obtained from a text is written as a literal of SQL and not as a word exactly if it is not
an infinity or a NaN. One of those is the double that the whole text reads as.
-/
theorem ObtainedFrom.isLiteral_sql_iff (obtained : ObtainedFrom raw l) :
    (Sql.IsLiteral l.sql.toList ∧ ¬ Sql.IsBareWord l.sql.toList ↔ l.IsFinite) ∧
      (¬ l.IsFinite → l.sql ∈ ["NaN", "inf", "-inf"] ∧
        ∃ x, l = .float x ∧ Number.readBinary64? raw = some x) := by
  obtain ⟨present, reads⟩ := obtained.reads
  rcases sql_cases present with ⟨finite, literal⟩ | ⟨special, word⟩
  · exact ⟨iff_of_true ⟨literal, literal.not_isBareWord⟩ finite, fun h => absurd finite h⟩
  · refine ⟨iff_of_false (fun h => not_isLiteral_word word h.1) special, fun _ => ⟨word, ?_⟩⟩
    cases l with
    | float x => exact ⟨x, rfl, reads x rfl⟩
    | _ => exact absurd trivial special

/-- A small rate keeps its exponent, which may come in with a capital letter. -/
theorem isLiteral_sql_smallRate : ObtainedFrom "+2.50E-7" (Command.inferLiteral "+2.50E-7") ∧
    (Command.inferLiteral "+2.50E-7").sql = "2.5e-7" ∧
    Sql.IsLiteral (Command.inferLiteral "+2.50E-7").sql.toList := by
  have finite : (Command.inferLiteral "+2.50E-7").IsFinite := by
    rfl
  exact ⟨.inferred, by decide +kernel, ((ObtainedFrom.isLiteral_sql_iff .inferred).1.mpr finite).1⟩

/-- The word for no number is read as a double, and written as a name. -/
theorem notANumber_isBareWord : ∃ l, ParameterKind.float.parse "rate" "nan" = .ok l ∧
    ¬ Sql.IsLiteral l.sql.toList ∧ Sql.IsBareWord l.sql.toList := by
  refine ⟨.float .nan, rfl, fun literal => ?_, ?_⟩
  · exact not_isLiteral_word (by decide) literal
  · exact ⟨by decide, by decide, by decide⟩

end Literal

end RuleQuery
