/-
# The fragments of a statement

A statement is put together from four sorts of text. Names, keywords and the glue between parts are
plain: no character of theirs can belong to a quote or a comment, so anything may stand beside them.
Raw fragments and numbers are only inert: they hold no quote and no comment, but they may end in a
hyphen or a slash, and so must be followed by something harmless, which here is always a blank, a
comma or a closing parenthesis. Strings, dates and timestamps are string literals.

Names, keywords and glue hold no brace either, and neither do numbers, so that a placeholder can
start in none of them: they are fixed, and numbers are solid.

For each sort, one lemma says that putting such a fragment in front of two texts that are alike
keeps them alike.
-/

import RuleQuery.Proofs.Injection.Alike
import RuleQuery.Proofs.Name

namespace RuleQuery

open Sql (Alike OpensComment)

/-- A character that takes no part in quoting and in comments. -/
def isPlain (c : Char) : Bool :=
  c != '\'' && c != '"' && c != '-' && c != '/'

/-- A text of plain characters. -/
def Plain (cs : List Char) : Prop := ∀ c ∈ cs, isPlain c = true

instance (cs : List Char) : Decidable (Plain cs) :=
  decidable_of_iff (cs.all isPlain = true) List.all_eq_true

/-- A plain character that does not start a placeholder. -/
def isFixed (c : Char) : Bool :=
  isPlain c && c != '\x7b'

/-- A text of fixed characters. -/
def Fixed (cs : List Char) : Prop := ∀ c ∈ cs, isFixed c = true

instance (cs : List Char) : Decidable (Fixed cs) :=
  decidable_of_iff (cs.all isFixed = true) List.all_eq_true

/-- A text without quotes of either sort and without the opening of a comment. -/
structure Inert (cs : List Char) : Prop where
  noQuote : '\'' ∉ cs
  noDoubleQuote : '"' ∉ cs
  noLineComment : ¬ ['-', '-'] <:+: cs
  noBlockComment : ¬ ['/', '*'] <:+: cs

/-- The characters that may follow a fragment. -/
def isCloser (c : Char) : Bool :=
  c == ' ' || c == '\n' || c == ',' || c == ')'

/-- A text ends where it is, or goes on with a character that may follow a fragment. -/
def Closes (cs : List Char) : Prop := cs.head?.all isCloser = true

instance (cs : List Char) : Decidable (Closes cs) := by
  unfold Closes; infer_instance

theorem Closes.nil : Closes [] := rfl

theorem Closes.append {s t : List Char} (hs : Closes s) (ht : Closes t) : Closes (s ++ t) := by
  cases s with
  | nil => exact ht
  | cons c s => exact hs

theorem Closes.head?_ne {cs : List Char} (closes : Closes cs) {c : Char}
    (other : isCloser c = false) : cs.head? ≠ some c := by
  rw [Closes, Option.all_eq_true] at closes
  intro same
  simp [closes c same] at other

/-- What follows a fragment does not complete a comment or a quote that the fragment ends in. -/
theorem Closes.head {cs : List Char} (closes : Closes cs) :
    cs.head? ≠ some '-' ∧ cs.head? ≠ some '*' ∧ cs.head? ≠ some '\'' :=
  ⟨closes.head?_ne (by decide), closes.head?_ne (by decide), closes.head?_ne (by decide)⟩

theorem Closes.not_opensComment {c : Char} {cs : List Char} (closes : Closes cs) :
    ¬ OpensComment c cs := by
  rintro (⟨_, line⟩ | ⟨_, block⟩)
  · exact closes.head.1 line
  · exact closes.head.2.1 block

theorem not_opensComment_of_isPlain {c : Char} (plain : isPlain c = true) (cs : List Char) :
    ¬ OpensComment c cs := by
  rintro (⟨rfl, _⟩ | ⟨rfl, _⟩) <;> revert plain <;> decide

theorem unquoted_of_isPlain {c : Char} (plain : isPlain c = true) : c ≠ '\'' ∧ c ≠ '"' := by
  constructor <;> rintro rfl <;> revert plain <;> decide

theorem Plain.append {s t : List Char} (hs : Plain s) (ht : Plain t) : Plain (s ++ t) := by
  intro c mem
  exact (List.mem_append.mp mem).elim (hs c) (ht c)

/-- Plain text does not start with a sign. -/
theorem Plain.head? {s : List Char} (h : Plain s) : s.head? ≠ some '-' := by
  intro sign
  obtain ⟨rest, rfl⟩ := List.head?_eq_some_iff.mp sign
  exact absurd (h '-' (by simp)) (by decide)

theorem isPlain_of_isFixed {c : Char} (fixed : isFixed c = true) : isPlain c = true :=
  (Bool.and_eq_true _ _ |>.mp fixed).1

/-- A fixed character starts neither a string literal nor a placeholder. -/
theorem unopened_of_isFixed {c : Char} (fixed : isFixed c = true) : c ≠ '\'' ∧ c ≠ '\x7b' := by
  constructor <;> rintro rfl <;> revert fixed <;> decide

theorem Fixed.plain {cs : List Char} (h : Fixed cs) : Plain cs := fun c mem =>
  isPlain_of_isFixed (h c mem)

theorem Fixed.append {s t : List Char} (hs : Fixed s) (ht : Fixed t) : Fixed (s ++ t) := by
  intro c mem
  exact (List.mem_append.mp mem).elim (hs c) (ht c)

namespace Inert

theorem nil : Inert [] := by
  constructor <;> simp

/-- A character in front of an inert text keeps it inert unless it opens something. -/
theorem cons {c : Char} {cs : List Char} (inert : Inert cs) (unquoted : c ≠ '\'' ∧ c ≠ '"')
    (noComment : ¬ OpensComment c cs) : Inert (c :: cs) := by
  constructor
  · simp [unquoted.1.symm, inert.noQuote]
  · simp [unquoted.2.symm, inert.noDoubleQuote]
  · intro inside
    rcases List.infix_cons_iff.mp inside with first | later
    · obtain ⟨rest, split⟩ := first
      obtain ⟨rfl, rfl⟩ := List.cons.inj split
      exact noComment (.inl ⟨rfl, rfl⟩)
    · exact inert.noLineComment later
  · intro inside
    rcases List.infix_cons_iff.mp inside with first | later
    · obtain ⟨rest, split⟩ := first
      obtain ⟨rfl, rfl⟩ := List.cons.inj split
      exact noComment (.inr ⟨rfl, rfl⟩)
    · exact inert.noBlockComment later

/-- What an inert text starts with, and that the rest of it is inert. -/
theorem of_cons {c : Char} {cs : List Char} (inert : Inert (c :: cs)) :
    (c ≠ '\'' ∧ c ≠ '"') ∧ ¬ OpensComment c cs ∧ Inert cs := by
  refine ⟨⟨?_, ?_⟩, ?_, ?_, ?_, ?_, ?_⟩
  · rintro rfl
    exact inert.noQuote (by simp)
  · rintro rfl
    exact inert.noDoubleQuote (by simp)
  · rintro (⟨rfl, next⟩ | ⟨rfl, next⟩)
    · obtain ⟨rest, rfl⟩ := List.head?_eq_some_iff.mp next
      exact inert.noLineComment (List.prefix_append ['-', '-'] rest).isInfix
    · obtain ⟨rest, rfl⟩ := List.head?_eq_some_iff.mp next
      exact inert.noBlockComment (List.prefix_append ['/', '*'] rest).isInfix
  · exact fun mem => inert.noQuote (List.mem_cons_of_mem c mem)
  · exact fun mem => inert.noDoubleQuote (List.mem_cons_of_mem c mem)
  · exact fun inside => inert.noLineComment (List.infix_cons inside)
  · exact fun inside => inert.noBlockComment (List.infix_cons inside)

theorem of_plain_append {s t : List Char} (plain : Plain s) (inert : Inert t) :
    Inert (s ++ t) := by
  induction s with
  | nil => exact inert
  | cons c s ih =>
      have first : isPlain c = true := plain c (by simp)
      have rest := ih fun d mem => plain d (List.mem_cons_of_mem c mem)
      exact rest.cons (unquoted_of_isPlain first) (not_opensComment_of_isPlain first _)

/-- Two inert texts, of which the second goes on harmlessly. -/
theorem append {s t : List Char} (hs : Inert s) (ht : Inert t) (closes : Closes t) :
    Inert (s ++ t) := by
  induction s with
  | nil => exact ht
  | cons c s ih =>
      obtain ⟨unquoted, noComment, tail⟩ := hs.of_cons
      apply (ih tail).cons unquoted
      cases s with
      | nil => exact closes.not_opensComment
      | cons d s => exact noComment

theorem of_plain {s : List Char} (plain : Plain s) : Inert s := by
  simpa using of_plain_append plain nil

/-- A single sign in front of a text without sign opens nothing. -/
theorem signed {s : List Char} (negative : Bool) (inert : Inert s)
    (unsigned : s.head? ≠ some '-') : Inert ((if negative then ['-'] else []) ++ s) := by
  cases negative with
  | false => exact inert
  | true =>
      apply inert.cons (by decide)
      rintro (⟨_, next⟩ | ⟨other, _⟩)
      · exact unsigned next
      · exact absurd other (by decide)

end Inert

/-- An inert text in which no placeholder starts. -/
structure Solid (cs : List Char) : Prop where
  inert : Inert cs
  noBrace : '\x7b' ∉ cs

namespace Solid

theorem of_fixed_append {s t : List Char} (fixed : Fixed s) (solid : Solid t) : Solid (s ++ t) where
  inert := .of_plain_append fixed.plain solid.inert
  noBrace := by
    intro brace
    rcases List.mem_append.mp brace with first | second
    · exact (unopened_of_isFixed (fixed _ first)).2 rfl
    · exact solid.noBrace second

theorem nil : Solid [] := ⟨.nil, by simp⟩

theorem of_fixed {s : List Char} (fixed : Fixed s) : Solid s := by
  simpa using of_fixed_append fixed nil

/-- A single sign in front of a text without sign opens nothing. -/
theorem signed {s : List Char} (negative : Bool) (solid : Solid s)
    (unsigned : s.head? ≠ some '-') : Solid ((if negative then ['-'] else []) ++ s) where
  inert := .signed negative solid.inert unsigned
  noBrace := by cases negative <;> simp [solid.noBrace]

end Solid

namespace Sql.Alike

variable {a b : List Char}

/-- Plain text may stand in front of anything. -/
theorem plain {cs : List Char} (h : Plain cs) (rest : Alike a b) :
    Alike (cs ++ a) (cs ++ b) := by
  induction cs with
  | nil => exact rest
  | cons c cs ih =>
      have first : isPlain c = true := h c (by simp)
      apply Alike.code (unquoted_of_isPlain first)
      · exact not_opensComment_of_isPlain first _
      · exact not_opensComment_of_isPlain first _
      · exact ih fun d mem => h d (List.mem_cons_of_mem c mem)

/-- An inert text may stand in front of what may follow a fragment. -/
theorem inert {cs : List Char} (h : Inert cs) (left : Closes a) (right : Closes b)
    (rest : Alike a b) : Alike (cs ++ a) (cs ++ b) := by
  induction cs with
  | nil => exact rest
  | cons c cs ih =>
      obtain ⟨unquoted, noComment, tail⟩ := h.of_cons
      have apart {d : List Char} (closes : Closes d) : ¬ OpensComment c (cs ++ d) := by
        cases cs with
        | nil => exact closes.not_opensComment
        | cons e cs => exact noComment
      exact .code unquoted (apart left) (apart right) (ih tail)

end Sql.Alike

/-! ## Names -/

theorem isFixed_of_isPart {c : Char} (h : Name.isPart c = true) : isFixed c = true := by
  simp only [isFixed, isPlain, Bool.and_eq_true, bne_iff_ne]
  refine ⟨⟨⟨⟨?_, ?_⟩, ?_⟩, ?_⟩, ?_⟩ <;> rintro rfl <;> revert h <;> decide

theorem isFixed_of_isDottedPart {c : Char} (h : Name.isDottedPart c = true) :
    isFixed c = true := by
  rcases Bool.or_eq_true _ _ |>.mp h with part | point
  · exact isFixed_of_isPart part
  · rw [beq_iff_eq.mp point]
    decide

theorem fixed_of_isDottedChars {cs : List Char} (h : Name.isDottedChars cs = true) :
    Fixed cs := fun c mem => isFixed_of_isDottedPart (Name.isDottedPart_of_mem h c mem)

theorem fixed_of_isDotted {s : String} (h : Name.isDotted s = true) : Fixed s.toList :=
  fixed_of_isDottedChars h

theorem fixed_of_isIdentifier {s : String} (h : Name.isIdentifier s = true) : Fixed s.toList :=
  fixed_of_isDottedChars (Name.isDottedChars_of_isIdentifierChars h)

/-- A column reference is a dotted name but for a star. -/
theorem fixed_of_isColumnReference {s : String} (h : Name.isColumnReference s = true) :
    Fixed s.toList := by
  have reversed {cs : List Char} (fixed : Fixed cs) : Fixed cs.reverse := fun c mem =>
    fixed c (List.mem_reverse.mp mem)
  suffices fixed : Fixed s.toList.reverse by
    simpa using reversed fixed
  unfold Name.isColumnReference at h
  split at h
  next star =>
    rw [star]
    decide
  next qualifier split =>
    rw [split]
    have inner := reversed (fixed_of_isDottedChars h)
    rw [List.reverse_reverse] at inner
    exact Fixed.append (s := ['*', '.']) (by decide) inner
  · have inner := reversed (fixed_of_isDottedChars h)
    rwa [List.reverse_reverse] at inner

/-- The name in a placeholder is an identifier. -/
theorem isIdentifier_of_placeholder? {s name : String} (h : Name.placeholder? s = some name) :
    Name.isIdentifier name = true := by
  unfold Name.placeholder? at h
  split at h
  · split at h
    · split at h
      next identifier =>
        cases h
        simpa [Name.isIdentifier] using identifier
      · cases h
    · cases h
  · cases h

theorem plain_placeholder {name : String} (h : Name.isIdentifier name = true) :
    Plain (Name.placeholder name).toList := by
  have braces : Plain ['\x7b', '\x7b'] ∧ Plain ['\x7d', '\x7d'] := by decide
  simpa [Name.placeholder] using
    (braces.1.append (fixed_of_isIdentifier h).plain).append braces.2

/-! ## Numbers -/

open Number

theorem fixed_digits (n : Nat) : Fixed (digits n) := fun _ mem =>
  isFixed_of_isPart (Name.isPart_of_isDigit (isDigit_of_mem_digits mem))

theorem fixed_replicate_zero (n : Nat) : Fixed (List.replicate n '0') := by
  intro c mem
  rw [List.eq_of_mem_replicate mem]
  decide

theorem solid_integerText (n : Int) : Solid (integerText n).toList := by
  have fixed := fixed_digits n.natAbs
  have signed := Solid.signed (decide (n < 0)) (.of_fixed fixed) fixed.plain.head?
  simpa [integerText] using signed

theorem fixed_positional (d : Decimal) : Fixed (Layout.positional d) := by
  have padded (n : Nat) : Fixed (List.replicate n '0' ++ digits d.coefficient) :=
    (fixed_replicate_zero n).append (fixed_digits _)
  simp only [Layout.positional]
  split
  · exact ((fixed_digits _).append (fixed_replicate_zero _)).append (by decide)
  · refine Fixed.append (fun c mem => padded _ c (List.mem_of_mem_take mem)) ?_
    exact Fixed.append (s := ['.']) (by decide) fun c mem => padded _ c (List.mem_of_mem_drop mem)

/-- The digits of scientific text, with a point after the first if there are more, and its `e`. -/
theorem fixed_mantissa (ds : List Char) : Fixed ds →
    Fixed ((match ds with
      | [] => []
      | [c] => [c]
      | c :: rest => c :: '.' :: rest) ++ ['e']) := by
  intro h
  refine Fixed.append ?_ (by decide)
  rcases ds with _ | ⟨c, _ | ⟨d, rest⟩⟩
  · exact h
  · exact h
  · intro e mem
    simp only [List.mem_cons] at mem
    rcases mem with rfl | rfl | mem
    · exact h e (by simp)
    · decide
    · exact h e (by simp [mem])

/-- The exponent of scientific text has a single sign. -/
theorem solid_exponent (plusSign : Bool) (power : Int) :
    Solid ((if power < 0 then ['-'] else if plusSign then ['+'] else []) ++
      digits power.natAbs) := by
  have fixed := fixed_digits power.natAbs
  by_cases negative : power < 0
  · simpa [negative] using Solid.signed true (.of_fixed fixed) fixed.plain.head?
  · rw [if_neg negative]
    apply Solid.of_fixed (Fixed.append _ fixed)
    cases plusSign <;> decide

/-- The text of a positive number is fixed up to the sign of its exponent, if it has one. -/
theorem magnitude_eq_append (layout : Layout) (m : Nat) (q : Int) :
    ∃ s t, layout.magnitude m q = s ++ t ∧ Fixed s ∧ Solid t ∧ (s = [] → t = []) := by
  simp only [Layout.magnitude]
  generalize shortest layout.tie m q = d
  split
  · exact ⟨_, [], (List.append_nil _).symm, fixed_positional d, .nil, fun _ => rfl⟩
  · refine ⟨_, _, ?_, fixed_mantissa _ (fixed_digits d.coefficient),
      solid_exponent layout.plusSign (d.exponent + (digits d.coefficient).length - 1), by simp⟩
    simp only [Layout.scientific, List.append_assoc, List.cons_append]
    rfl

theorem solid_magnitude (layout : Layout) (m : Nat) (q : Int) :
    Solid (layout.magnitude m q) ∧ (layout.magnitude m q).head? ≠ some '-' := by
  obtain ⟨s, t, split, fixed, solid, nonempty⟩ := magnitude_eq_append layout m q
  rw [split]
  refine ⟨.of_fixed_append fixed solid, ?_⟩
  cases s with
  | nil => simp [nonempty rfl]
  | cons c s => exact fixed.plain.head?

/-- The text of a double has neither quotes nor comments nor braces in it. -/
theorem solid_text (layout : Layout) (x : Binary64) : Solid (layout.text x).toList := by
  unfold Layout.text
  split
  · exact .of_fixed (by decide)
  · split
    · exact Solid.signed (s := ['i', 'n', 'f']) true (.of_fixed (by decide)) (by decide)
    · exact .of_fixed (by decide)
  next negative m q _ =>
    rw [String.toList_ofList]
    by_cases zero : m = 0
    · rw [if_pos zero]
      exact .signed negative (.of_fixed (by decide)) (by decide)
    · obtain ⟨solid, unsigned⟩ := solid_magnitude layout m q
      rw [if_neg zero]
      exact .signed negative solid unsigned

/-! ## Literals -/

namespace Literal

/-- A parameter is named by an identifier. -/
theorem isIdentifier_of_placeholder? {l : Literal} {name : String}
    (h : l.placeholder? = some name) : Name.isIdentifier name = true := by
  cases l with
  | string s => exact RuleQuery.isIdentifier_of_placeholder? h
  | _ => cases h

/-- A literal that is written as a string literal. -/
def isText : Literal → Bool
  | .string _ | .date _ | .timestamp _ => true
  | _ => false

/-- Two literals that are the same, or both written as string literals. -/
def Twins (l m : Literal) : Prop := l = m ∨ (l.isText = true ∧ m.isText = true)

theorem sql_of_isText {l : Literal} (h : l.isText = true) :
    ∃ cs, l.sql.toList = '\'' :: doubleQuotes cs ++ ['\''] := by
  cases l with
  | string s => exact ⟨s.toList, by simp [sql, quoted]⟩
  | date d => exact ⟨d.text, by simp [sql, quoted]⟩
  | timestamp t => exact ⟨t.text ' ', by simp [sql, quoted]⟩
  | _ => cases h

theorem solid_sql {l : Literal} (h : l.isText = false) : Solid l.sql.toList := by
  cases l with
  | null => exact .of_fixed (by decide)
  | bool b => cases b <;> exact .of_fixed (by decide)
  | int n => exact solid_integerText n.toInt
  | float x => exact solid_text Layout.sql x
  | _ => cases h

end Literal

/-- Literals that are twins may take each other's place in front of what may follow a fragment. -/
theorem Sql.Alike.literal {a b : List Char} {l m : Literal} (twins : l.Twins m) (left : Closes a)
    (right : Closes b) (rest : Alike a b) : Alike (l.sql.toList ++ a) (m.sql.toList ++ b) := by
  have texts {l m : Literal} (hl : l.isText = true) (hm : m.isText = true) :
      Alike (l.sql.toList ++ a) (m.sql.toList ++ b) := by
    obtain ⟨s, textL⟩ := Literal.sql_of_isText hl
    obtain ⟨t, textM⟩ := Literal.sql_of_isText hm
    rw [textL, textM, List.append_assoc, List.append_assoc]
    exact .string s t left.head.2.2 right.head.2.2 rest
  rcases twins with rfl | ⟨hl, hm⟩
  · cases text : l.isText with
    | true => exact texts text text
    | false => exact .inert (Literal.solid_sql text).inert left right rest
  · exact texts hl hm

end RuleQuery
