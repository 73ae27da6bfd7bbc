/-
# Arguments told apart by their texts

A text that starts with an argument shows which argument that is, and where it ends. It is enough
that what comes next may follow a fragment: the end, a blank, a comma or a closing parenthesis.

The first character behind the word in front tells the sorts of arguments apart: a call has its
parenthesis there, a string or a placeholder has no word and starts with a mark of its own, and
everything else is that word. A word is read back as NULL, a truth value, an integer or a column,
unless a column has the name of one of the constants.
-/

import RuleQuery.Proofs.Injection.Fragment
import RuleQuery.Proofs.Where.Normal

namespace RuleQuery

open Sql (Template Piece)
open Number (digits value integerText readInt64?)

/-! ## Texts in front of texts -/

/-- The characters of a template when no parameter has a value. -/
def Sql.Template.chars (t : Template) : List Char := t.sql.toList

namespace Sql.Template

variable {s : String} {t u : Template}

@[simp] theorem chars_nil : chars [] = [] := rfl

@[simp] theorem chars_text : chars (.text s :: t) = s.toList ++ t.chars := by
  simp [chars, sql, Piece.fill]

@[simp] theorem chars_append : chars (t ++ u) = t.chars ++ u.chars := by
  simp [chars, sql]

@[simp] theorem chars_ofText : chars (ofText s) = s.toList := by
  simp [ofText]

/-- The first of joined texts, and the others with a separator in front of each. -/
theorem chars_joined_cons (separator : String) (t : Template) (parts : List Template) :
    chars (joined separator (t :: parts)) =
      t.chars ++ parts.flatMap fun u => separator.toList ++ u.chars := by
  rw [joined_cons, chars_append]
  congr 1
  induction parts with
  | nil => rfl
  | cons u parts ih =>
      rw [List.flatMap_cons, List.cons_append, chars_text, chars_append, ih, List.flatMap_cons,
        List.append_assoc]

end Sql.Template

section Texts

variable {α : Type} {text : α → List Char} {a b r s : List Char}

/-- Runs of one sort of characters end where a character of another sort follows. -/
theorem eq_of_run_append {p : Char → Bool} (ha : ∀ c ∈ a, p c = true) (hb : ∀ c ∈ b, p c = true)
    (hr : ∀ c ∈ r.head?, p c = false) (hs : ∀ c ∈ s.head?, p c = false)
    (same : a ++ r = b ++ s) : a = b ∧ r = s := by
  have run {a r : List Char} (ha : ∀ c ∈ a, p c = true) (hr : ∀ c ∈ r.head?, p c = false) :
      (a ++ r).takeWhile p = a := by
    rw [List.takeWhile_append_of_pos ha]
    cases r with
    | nil => simp
    | cons c r => simp [hr c rfl]
  have front : a = b := by rw [← run ha hr, ← run hb hs, same]
  subst front
  exact ⟨rfl, List.append_cancel_left same⟩

/-- In front of what may follow a fragment, the texts of different things are different. -/
def ToldApart (text : α → List Char) (a b : α) : Prop :=
  ∀ r s, Closes r → Closes s → text a ++ r = text b ++ s → a = b ∧ r = s

/-- Things told apart are told apart one after another, with a separator in front of each. -/
theorem eq_of_entries_append {d : Char} {sep : List Char} (closer : isCloser d = true)
    {as bs : List α} (each : ∀ a ∈ as, ∀ b ∈ bs, ToldApart text a b) (hr : Closes r)
    (hs : Closes s) (endR : r.head? ≠ some d) (endS : s.head? ≠ some d)
    (same : (as.flatMap fun a => d :: sep ++ text a) ++ r =
      (bs.flatMap fun b => d :: sep ++ text b) ++ s) : as = bs ∧ r = s := by
  have follows (cs : List α) {r : List Char} (hr : Closes r) :
      Closes ((cs.flatMap fun c => d :: sep ++ text c) ++ r) := by
    cases cs with
    | nil => exact hr
    | cons c cs => exact closer
  induction as generalizing bs with
  | nil =>
      cases bs with
      | nil => exact ⟨rfl, same⟩
      | cons b bs => exact absurd (congrArg List.head? same) endR
  | cons a as ih =>
      cases bs with
      | nil => exact absurd (congrArg List.head? same).symm endS
      | cons b bs =>
          rw [List.flatMap_cons, List.flatMap_cons, List.append_assoc, List.append_assoc,
            List.append_assoc, List.append_assoc] at same
          obtain ⟨rfl, rest⟩ := each a (by simp) b (by simp) _ _ (follows as hr) (follows bs hs)
            (List.append_cancel_left same)
          obtain ⟨rfl, done⟩ := ih (fun a ha b hb => each a (by simp [ha]) b (by simp [hb])) rest
          exact ⟨rfl, done⟩

/-- Things told apart are told apart in a list with commas that ends in a parenthesis. -/
theorem eq_of_list_append {t : α → Template} {as bs : List α} (ha : as ≠ []) (hb : bs ≠ [])
    (each : ∀ a ∈ as, ∀ b ∈ bs, ToldApart (fun a => (t a).chars) a b)
    (same : (Template.joined ", " (as.map t)).chars ++ ')' :: r =
      (Template.joined ", " (bs.map t)).chars ++ ')' :: s) : as = bs ∧ r = s := by
  have comma {cs : List α} (hc : cs ≠ []) (u : List Char) :
      (cs.flatMap fun c => ',' :: [' '] ++ (t c).chars) ++ u =
        ',' :: ' ' :: ((Template.joined ", " (cs.map t)).chars ++ u) := by
    obtain ⟨c, cs, rfl⟩ := List.exists_cons_of_ne_nil hc
    simp [Template.chars_joined_cons, List.flatMap_map]
  have entries := congrArg (fun u => ',' :: ' ' :: u) same
  simp only [← comma ha, ← comma hb] at entries
  have closes (u : List Char) : Closes (')' :: u) := rfl
  obtain ⟨rfl, rest⟩ := eq_of_entries_append (by decide) each (closes r) (closes s) (by simp)
    (by simp) entries
  exact ⟨rfl, (List.cons.inj rest).2⟩

end Texts

/-! ## Words -/

/-- The characters of names, stars, numbers and keywords. -/
def isInner (c : Char) : Bool := Name.isDottedPart c || c == '*' || c == '-'

/-- The first character behind the word in front of a text. -/
def behindWord (cs : List Char) : Option Char := (cs.dropWhile isInner).head?

theorem isInner_of_isPart {c : Char} (part : Name.isPart c = true) : isInner c = true := by
  simp [isInner, Name.isDottedPart, part]

/-- What may follow a fragment does not belong to a word. -/
theorem Closes.outer {cs : List Char} (closes : Closes cs) : ∀ c ∈ cs.head?, isInner c = false := by
  intro c mem
  rw [Closes, Option.mem_def.mp mem, Option.all_some] at closes
  simp only [isCloser, Bool.or_eq_true, beq_iff_eq] at closes
  rcases closes with ((rfl | rfl) | rfl) | rfl <;> decide

theorem behindWord_append {a r : List Char} (inner : ∀ c ∈ a, isInner c = true)
    (stop : ∀ c ∈ r.head?, isInner c = false) : behindWord (a ++ r) = r.head? := by
  rw [behindWord, List.dropWhile_append_of_pos inner]
  cases r with
  | nil => rfl
  | cons c r => rw [List.dropWhile_cons_of_neg (by simp [stop c rfl])]

theorem inner_of_isIdentifier {s : String} (identifier : Name.isIdentifier s = true) :
    ∀ c ∈ s.toList, isInner c = true := fun c mem =>
  isInner_of_isPart (Name.isPart_of_mem identifier c mem)

theorem inner_of_isColumnReference {s : String} (reference : Name.isColumnReference s = true) :
    ∀ c ∈ s.toList, isInner c = true := by
  have dotted {cs : List Char} (h : Name.isDottedChars cs = true) : ∀ c ∈ cs, isInner c = true :=
    fun c mem => by simp [isInner, Name.isDottedPart_of_mem h c mem]
  rcases Name.columnReference_cases reference with whole | star | ⟨q, front, chars⟩
  · exact dotted whole
  · rw [star]
    exact List.all_eq_true.mp (by decide)
  · rw [chars]
    exact List.forall_mem_append.mpr ⟨dotted front, List.all_eq_true.mp (by decide)⟩

theorem inner_integerText (n : Int) : ∀ c ∈ (integerText n).toList, isInner c = true := by
  have digits : ∀ c ∈ digits n.natAbs, isInner c = true := fun _ mem =>
    isInner_of_isPart (Name.isPart_of_isDigit (Number.isDigit_of_mem_digits mem))
  rw [integerText, String.toList_ofList]
  refine List.forall_mem_append.mpr ⟨?_, digits⟩
  split <;> exact List.all_eq_true.mp (by decide)

/-- A column is no integer. -/
theorem Number.readInt64?_of_isColumnReference {s : String}
    (reference : Name.isColumnReference s = true) : readInt64? s = none := by
  obtain ⟨c, cs, chars, start⟩ := Name.exists_cons_of_isColumnReference reference
  have unlike : c.isDigit = false ∧ c ≠ '-' ∧ c ≠ '+' := by
    rcases start with start | rfl
    · refine ⟨Name.isDigit_of_isStart start, ?_, ?_⟩ <;> rintro rfl <;> cases start
    · decide
  obtain ⟨notDigit, notMinus, notPlus⟩ := unlike
  have unsigned : takeSign s.toList = (false, c :: cs) := by
    rw [chars]
    unfold takeSign
    split <;> simp_all
  simp [readInt64?, unsigned, notDigit]

/-! ## Literals -/

namespace Literal

/-- NULL, a truth value, an integer or a string. -/
def IsSimple : Literal → Prop
  | .null | .bool _ | .int _ | .string _ => True
  | .float _ | .date _ | .timestamp _ => False

/-- The characters of a literal in its place when no parameter has a value. -/
def shown (l : Literal) : List Char := (Sql.literalText .empty l).toList

/-- The mark that a literal starts with if it is not a word. -/
def mark : Literal → Option Char
  | .string s => if (Name.placeholder? s).isSome then some '\x7b' else some '\''
  | _ => none

/-- No literal has the mark of a call. -/
theorem mark_ne (l : Literal) : l.mark ≠ some '(' := by
  cases l with
  | string s =>
      simp only [mark]
      split <;> decide
  | _ => exact nofun

theorem shown_of_placeholder? {s name : String} (parameter : Name.placeholder? s = some name) :
    shown (.string s) = s.toList := by
  have open_ : Sql.literalText .empty (.string s) = Name.placeholder name := by
    simp only [Sql.literalText, placeholder?, parameter, Sql.Environment.empty]
  rw [shown, open_, ← Name.eq_placeholder parameter]

theorem shown_of_string {s : String} (plain : Name.placeholder? s = none) :
    shown (.string s) = '\'' :: (doubleQuotes s.toList ++ ['\'']) := by
  simp only [shown, Sql.literalText, placeholder?, plain, sql, quoted, String.toList_ofList]
  rfl

/-- A quoted text ends at the first quote that is not doubled. -/
theorem doubleQuotes_append_inj {s t x y : List Char} (hx : x.head? ≠ some '\'')
    (hy : y.head? ≠ some '\'')
    (same : doubleQuotes s ++ '\'' :: x = doubleQuotes t ++ '\'' :: y) : s = t ∧ x = y := by
  have step (c : Char) (cs w : List Char) : doubleQuotes (c :: cs) ++ w =
      c :: ((if c = '\'' then ['\''] else []) ++ (doubleQuotes cs ++ w)) := by
    by_cases quote : c = '\'' <;> simp [doubleQuotes, quote]
  have border {u v w : List Char} {c : Char} (hu : u.head? ≠ some '\'')
      (same : '\'' :: u = doubleQuotes (c :: v) ++ '\'' :: w) : False := by
    rw [step] at same
    obtain ⟨rfl, rest⟩ := List.cons.inj same
    exact hu (by simp [rest])
  induction s generalizing t with
  | nil =>
      cases t with
      | nil => exact ⟨rfl, (List.cons.inj same).2⟩
      | cons d t => exact (border hx same).elim
  | cons c s ih =>
      cases t with
      | nil => exact (border hy same.symm).elim
      | cons d t =>
          rw [step, step] at same
          obtain ⟨rfl, rest⟩ := List.cons.inj same
          obtain ⟨rfl, done⟩ := ih (List.append_cancel_left rest)
          exact ⟨rfl, done⟩

/-- Strings and placeholders are told apart. -/
theorem toldApart_string (s t : String) : ToldApart shown (.string s) (.string t) := by
  intro x y hx hy same
  have braced {s name : String} (parameter : Name.placeholder? s = some name) (x : List Char) :
      shown (.string s) ++ x = '\x7b' :: '\x7b' :: (name.toList ++ '\x7d' :: '\x7d' :: x) := by
    rw [shown_of_placeholder? parameter, Name.eq_placeholder parameter, Name.toList_placeholder]
    simp
  have quoted {s : String} (plain : Name.placeholder? s = none) (x : List Char) :
      shown (.string s) ++ x = '\'' :: (doubleQuotes s.toList ++ '\'' :: x) := by
    simp [shown_of_string plain]
  cases hs : Name.placeholder? s with
  | none =>
      cases ht : Name.placeholder? t with
      | none =>
          rw [quoted hs, quoted ht, List.cons_inj_right] at same
          obtain ⟨chars, rest⟩ := doubleQuotes_append_inj hx.head.2.2 hy.head.2.2 same
          exact ⟨by rw [String.toList_inj.mp chars], rest⟩
      | some name =>
          rw [quoted hs, braced ht] at same
          cases same
  | some name =>
      cases ht : Name.placeholder? t with
      | none =>
          rw [braced hs, quoted ht] at same
          cases same
      | some other =>
          rw [braced hs, braced ht, List.cons_inj_right, List.cons_inj_right] at same
          have parts {s name : String} (h : Name.placeholder? s = some name) :
              ∀ c ∈ name.toList, Name.isPart c = true :=
            Name.isPart_of_mem (RuleQuery.isIdentifier_of_placeholder? h)
          obtain ⟨chars, rest⟩ :=
            eq_of_run_append (parts hs) (parts ht) (by simp; decide) (by simp; decide) same
          obtain rfl := String.toList_inj.mp chars
          refine ⟨by rw [Name.eq_placeholder hs, Name.eq_placeholder ht], ?_⟩
          simpa using rest

end Literal

@[simp] theorem Sql.Template.chars_slot (l : Literal) (t : Template) :
    chars (.slot l :: t) = l.shown ++ t.chars := by
  simp [chars, sql, Piece.fill, Literal.shown]

/-! ## Arguments -/

namespace Argument

/-- The keywords that a column may have the name of. -/
def constants : List String := ["NULL", "TRUE", "FALSE"]

/--
An argument with functions in upper case, whose literals are simple and none of whose columns has
the name of a constant.
-/
inductive Clear : Argument → Prop
  | literal {l : Literal} (simple : l.IsSimple) : Clear (.literal l)
  | column {name : String} (reference : Name.isColumnReference name = true)
      (free : name ∉ constants) : Clear (.column name)
  | call {function : String} {args : List Argument} (identifier : Name.isIdentifier function = true)
      (upper : Text.upperAscii function = function) (nonempty : args ≠ [])
      (arguments : ∀ a ∈ args, Clear a) : Clear (.call function args)

def chars (a : Argument) : List Char := a.template.chars

@[simp] theorem chars_literal (l : Literal) : chars (.literal l) = l.shown := by
  simp [chars, template]

@[simp] theorem chars_column (name : String) : chars (.column name) = name.toList := by
  simp [chars, template]

/-- The character behind the word in front of an argument, unless the argument is that word. -/
def mark : Argument → Option Char
  | .literal l => l.mark
  | .column _ => none
  | .call _ _ => some '('

/-- The argument that is a given word. -/
def ofWord (cs : List Char) : Argument :=
  match readInt64? (String.ofList cs) with
  | some n => .literal (.int n)
  | none =>
    if cs = "NULL".toList then .literal .null
    else if cs = "TRUE".toList then .literal (.bool true)
    else if cs = "FALSE".toList then .literal (.bool false)
    else .column (String.ofList cs)

variable {a b : Argument}

/-- An argument that is a word can be read back from it. -/
theorem Clear.ofWord_chars (clear : a.Clear) (word : a.mark = none) :
    ofWord a.chars = a ∧ ∀ c ∈ a.chars, isInner c = true := by
  cases clear with
  | @literal l simple =>
      rw [chars_literal]
      cases l with
      | null => exact ⟨by decide +kernel, List.all_eq_true.mp (by decide)⟩
      | bool value =>
          cases value <;> exact ⟨by decide +kernel, List.all_eq_true.mp (by decide)⟩
      | int n =>
          have text : (Literal.int n).shown = (integerText n.toInt).toList := rfl
          rw [text, ofWord, String.ofList_toList, Number.readInt64?_integerText]
          exact ⟨rfl, inner_integerText n.toInt⟩
      | string s =>
          simp only [mark, Literal.mark] at word
          split at word <;> cases word
      | _ => exact simple.elim
  | @column name reference free =>
      have other : ∀ keyword ∈ constants, name.toList ≠ keyword.toList := by
        intro keyword mem same
        rw [String.toList_inj] at same
        exact free (same ▸ mem)
      simp only [constants, List.forall_mem_cons] at other
      rw [chars_column, ofWord, String.ofList_toList,
        Number.readInt64?_of_isColumnReference reference]
      simp only [other.1, other.2.1, other.2.2.1, if_false]
      exact ⟨trivial, inner_of_isColumnReference reference⟩
  | call _ _ _ _ => cases word

theorem templates_eq_map (args : List Argument) : templates args = args.map template := by
  induction args with
  | nil => rw [templates, List.map_nil]
  | cons a args ih => rw [templates, ih, List.map_cons]

/-- The name that a function is written with. -/
def callName (function : String) : String :=
  if function = "COUNT_DISTINCT" then "COUNT" else function

/-- What stands in front of the arguments of a function. -/
def callFront (function : String) : List Char :=
  if function = "COUNT_DISTINCT" then "DISTINCT ".toList else []

theorem isIdentifier_callName {function : String} (identifier : Name.isIdentifier function = true) :
    Name.isIdentifier (callName function) = true := by
  unfold callName
  split
  · decide
  · exact identifier

/-- A call in front of a text. -/
theorem chars_call {function : String} (upper : Text.upperAscii function = function)
    (args : List Argument) (r : List Char) :
    chars (.call function args) ++ r = (callName function).toList ++ '(' :: (callFront function ++
      ((Template.joined ", " (args.map template)).chars ++ ')' :: r)) := by
  have opening : (if function = "COUNT_DISTINCT" then "COUNT(DISTINCT " else function ++ "(").toList
      = (callName function).toList ++ '(' :: callFront function := by
    unfold callName callFront
    split
    · decide
    · simp
  simp [chars, template, Call.templateOf, upper, opening, templates_eq_map]

/-- The mark of an argument may not follow a fragment, and is no blank. -/
theorem isCloser_of_mark {m : Char} (mark : a.mark = some m) : isCloser m = false := by
  have closers : isCloser '\x7b' = false ∧ isCloser '\'' = false ∧ isCloser '(' = false := by decide
  cases a with
  | literal l =>
      cases l with
      | string s =>
          simp only [Argument.mark, Literal.mark] at mark
          split at mark <;> cases mark
          · exact closers.1
          · exact closers.2.1
      | _ => cases mark
  | column name => cases mark
  | call function args =>
      cases mark
      exact closers.2.2

/-- Behind the word of an argument stands its mark, or else what follows the argument. -/
theorem Clear.behindWord_append (clear : a.Clear) {r : List Char} (closes : Closes r) :
    behindWord (a.chars ++ r) = a.mark.or r.head? := by
  have words (word : a.mark = none) : behindWord (a.chars ++ r) = a.mark.or r.head? := by
    rw [RuleQuery.behindWord_append (clear.ofWord_chars word).2 closes.outer, word, Option.none_or]
  have marked {m : Char} {cs : List Char} (outer : isInner m = false) :
      behindWord (m :: cs) = some m := by
    rw [behindWord, List.dropWhile_cons_of_neg (by simp [outer]), List.head?_cons]
  cases clear with
  | @literal l simple =>
      cases l with
      | string s =>
          rw [chars_literal]
          cases parameter : Name.placeholder? s with
          | none =>
              rw [Literal.shown_of_string parameter, List.cons_append, marked (by decide)]
              simp [mark, Literal.mark, parameter]
          | some name =>
              rw [Literal.shown_of_placeholder? parameter, Name.eq_placeholder parameter,
                Name.toList_placeholder, List.cons_append, marked (by decide)]
              simp [mark, Literal.mark, ← Name.eq_placeholder parameter, parameter]
      | null | bool _ | int _ => exact words rfl
      | _ => exact simple.elim
  | column reference free => exact words rfl
  | call identifier upper _ _ =>
      rw [chars_call upper, RuleQuery.behindWord_append
        (inner_of_isIdentifier (isIdentifier_callName identifier)) (by simp; decide)]
      rfl

/-- A column or a call starts with no parenthesis. -/
theorem Clear.head?_ne (clear : a.Clear) (named : ∀ l, a ≠ .literal l) (r : List Char) :
    (a.chars ++ r).head? ≠ some '(' := by
  intro head
  cases clear with
  | literal simple => exact named _ rfl
  | @column name reference free =>
      obtain ⟨c, cs, chars, start⟩ := Name.exists_cons_of_isColumnReference reference
      rw [chars_column, chars] at head
      cases Option.some.inj head
      rcases start with start | start <;> cases start
  | @call function args identifier upper nonempty arguments =>
      have start := isIdentifier_callName identifier
      rw [chars_call upper] at head
      cases chars : (callName function).toList with
      | nil => simp [Name.isIdentifier, chars, Name.isIdentifierChars] at start
      | cons c cs =>
          rw [chars] at head
          cases Option.some.inj head
          rw [Name.isIdentifier, chars] at start
          cases start

/-- Two arguments with the same text in front of what may follow are of the same sort. -/
theorem Clear.mark_eq (ca : a.Clear) (cb : b.Clear) {r s : List Char} (hr : Closes r)
    (hs : Closes s) (same : a.chars ++ r = b.chars ++ s) : a.mark = b.mark := by
  have marks : a.mark.or r.head? = b.mark.or s.head? := by
    rw [← ca.behindWord_append hr, ← cb.behindWord_append hs, same]
  have follows {a : Argument} {m : Char} (mark : a.mark = some m) {r : List Char}
      (closes : Closes r) : r.head? ≠ some m := by
    intro head
    rw [Closes, head, Option.all_some, isCloser_of_mark mark] at closes
    cases closes
  cases ma : a.mark with
  | none =>
      cases mb : b.mark with
      | none => rfl
      | some m =>
          rw [ma, mb, Option.none_or, Option.some_or] at marks
          exact absurd marks (follows mb hr)
  | some m =>
      cases mb : b.mark with
      | none =>
          rw [ma, mb, Option.none_or, Option.some_or] at marks
          exact absurd marks.symm (follows ma hs)
      | some n => rwa [ma, mb, Option.some_or, Option.some_or] at marks

/-- Words, strings and placeholders are told apart. -/
theorem Clear.toldApart_atom (ca : a.Clear) (cb : b.Clear) (atom : a.mark ≠ some '(') :
    ToldApart chars a b := by
  intro r s hr hs same
  have marks := ca.mark_eq cb hr hs same
  cases word : a.mark with
  | none =>
      obtain ⟨readA, innerA⟩ := ca.ofWord_chars word
      obtain ⟨readB, innerB⟩ := cb.ofWord_chars (marks.symm.trans word)
      obtain ⟨equal, rest⟩ := eq_of_run_append innerA innerB hr.outer hs.outer same
      exact ⟨by rw [← readA, equal, readB], rest⟩
  | some m =>
      have string {a : Argument} (mark : a.mark = some m) (atom : a.mark ≠ some '(') :
          ∃ s, a = .literal (.string s) := by
        cases a with
        | literal l =>
            cases l with
            | string s => exact ⟨s, rfl⟩
            | _ => cases mark
        | column name => cases mark
        | call _ _ => exact absurd rfl atom
      obtain ⟨u, rfl⟩ := string word atom
      obtain ⟨v, rfl⟩ := string (marks.symm.trans word) (marks ▸ atom)
      rw [chars_literal, chars_literal] at same
      obtain ⟨equal, rest⟩ := Literal.toldApart_string u v r s hr hs same
      exact ⟨by rw [equal], rest⟩

/-- No list of arguments starts with a word and a blank. -/
theorem distinct_append_ne {args : List Argument} (nonempty : args ≠ [])
    (clear : ∀ a ∈ args, a.Clear) (x y : List Char) :
    "DISTINCT ".toList ++ x ≠ (Template.joined ", " (args.map template)).chars ++ ')' :: y := by
  intro same
  obtain ⟨a, args, rfl⟩ := List.exists_cons_of_ne_nil nonempty
  have first : a.Clear := clear a (by simp)
  have keyword : behindWord ("DISTINCT".toList ++ ' ' :: x) = some ' ' :=
    RuleQuery.behindWord_append (List.all_eq_true.mp (by decide)) (by simp; decide)
  rw [show "DISTINCT".toList ++ ' ' :: x = "DISTINCT ".toList ++ x from rfl, same, List.map_cons,
    Template.chars_joined_cons, List.append_assoc] at keyword
  obtain ⟨d, ds, behind, closer, shown⟩ : ∃ d ds, ((args.map template).flatMap fun u =>
      ", ".toList ++ u.chars) ++ ')' :: y = d :: ds ∧ isCloser d = true ∧ d ≠ ' ' := by
    cases args with
    | nil => exact ⟨')', y, rfl, by decide⟩
    | cons b args => exact ⟨',', _, rfl, by decide⟩
  rw [behind] at keyword
  have spot := (first.behindWord_append (r := d :: ds) closer).symm.trans keyword
  cases mark : a.mark with
  | none =>
      rw [mark, Option.none_or] at spot
      exact shown (Option.some.inj spot)
  | some m =>
      rw [mark, Option.some_or] at spot
      have blank := isCloser_of_mark (mark.trans spot)
      cases blank

/-- `COUNT` and `COUNT_DISTINCT`, which share a name, are told apart by what follows it. -/
theorem eq_of_callName {f g : String} {as bs : List Argument} {r s : List Char}
    (name : callName f = callName g) (ha : as ≠ []) (hb : bs ≠ []) (clearA : ∀ a ∈ as, a.Clear)
    (clearB : ∀ b ∈ bs, b.Clear)
    (inside : callFront f ++ ((Template.joined ", " (as.map template)).chars ++ ')' :: r) =
      callFront g ++ ((Template.joined ", " (bs.map template)).chars ++ ')' :: s)) : f = g := by
  unfold callName at name
  by_cases countF : f = "COUNT_DISTINCT" <;> by_cases countG : g = "COUNT_DISTINCT"
  · rw [countF, countG]
  · simp only [callFront, countF, countG, if_true, if_false, List.nil_append] at inside
    exact absurd inside (distinct_append_ne hb clearB _ _)
  · simp only [callFront, countF, countG, if_true, if_false, List.nil_append] at inside
    exact absurd inside.symm (distinct_append_ne ha clearA _ _)
  · rwa [if_neg countF, if_neg countG] at name

/-- Arguments are told apart. -/
theorem Clear.toldApart (ca : a.Clear) : ∀ {b : Argument}, b.Clear → ToldApart chars a b := by
  induction ca with
  | literal simple =>
      intro b cb
      exact toldApart_atom (.literal simple) cb (Literal.mark_ne _)
  | column reference free => exact fun cb => toldApart_atom (.column reference free) cb nofun
  | @call f as identifier upper nonempty arguments ih =>
      intro b cb r s hr hs same
      have marks := mark_eq (.call identifier upper nonempty arguments) cb hr hs same
      cases cb with
      | literal _ => exact absurd marks.symm (Literal.mark_ne _)
      | column _ _ => cases marks
      | @call g bs identifier' upper' nonempty' arguments' =>
          rw [chars_call upper, chars_call upper'] at same
          obtain ⟨name, inside⟩ := eq_of_run_append
            (inner_of_isIdentifier (isIdentifier_callName identifier))
            (inner_of_isIdentifier (isIdentifier_callName identifier')) (by simp; decide)
            (by simp; decide) same
          have inside := (List.cons.inj inside).2
          obtain rfl : f = g :=
            eq_of_callName (String.toList_inj.mp name) nonempty nonempty' arguments arguments'
              inside
          obtain ⟨rfl, rest⟩ := eq_of_list_append nonempty nonempty'
            (fun a ha b hb => ih a ha (arguments' b hb)) (List.append_cancel_left inside)
          exact ⟨rfl, rest⟩

end Argument

end RuleQuery
