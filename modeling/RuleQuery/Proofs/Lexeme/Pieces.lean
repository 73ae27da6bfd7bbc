/-
# The pieces a text is cut into

The lexemes of a text are pieces of it, one behind the other, and they leave nothing out. What a
piece may look like depends on its token: a word goes as far as it can in both directions, a string
or a quoted name with an end has its quote at both ends and only in pairs between them, and a piece
without its end has no other piece behind it.

All of it is read off from the cut at one place. `Lexeme.exists_next` finds the place where a given
lexeme was cut off, with the text that was in front of the lexer there, and `Lexeme.fits_of_next`
says what the cut gives. Only that a word has no character of a word before it needs the piece
before, which is never cut off between two such characters.
-/

import Mathlib.Data.List.Basic
import Mathlib.Data.List.Induction
import Mathlib.Data.List.TakeWhile
import RuleQuery.Proofs.Injection.Alike
import RuleQuery.Proofs.Lexeme.Cutting

namespace RuleQuery.Sql

/-! ## Between quotes -/

/-- What may stand between two quotes: the quote itself only in pairs. -/
inductive Paired (quote : Char) : List Char → Prop
  | nil : Paired quote []
  | char {c cs} (other : c ≠ quote) (rest : Paired quote cs) : Paired quote (c :: cs)
  | pair {cs} (rest : Paired quote cs) : Paired quote (quote :: quote :: cs)

/-- A text between two quotes. -/
def IsQuoted (quote : Char) (text : List Char) : Prop :=
  ∃ body, text = quote :: (body ++ [quote]) ∧ Paired quote body

/-- A text behind a quote. -/
def IsHalfQuoted (quote : Char) (text : List Char) : Prop :=
  ∃ body, text = quote :: body ∧ Paired quote body

/-- A text behind the opening of a block comment, without the end of one. -/
def IsOpenComment (text : List Char) : Prop :=
  ∃ body, text = '/' :: '*' :: body ∧ ¬ ['*', '/'] <:+: body

/-- A text from the opening of a block comment to the first end of one. -/
def IsComment (text : List Char) : Prop :=
  ∃ body, text = '/' :: '*' :: (body ++ ['*', '/']) ∧ ¬ ['*', '/'] <:+: body ++ ['*']

theorem IsQuoted.getLast? {quote : Char} {text : List Char} (quoted : IsQuoted quote text) :
    text.getLast? = some quote := by
  obtain ⟨body, rfl, _⟩ := quoted
  rw [← List.cons_append, List.getLast?_concat]

theorem IsComment.getLast? {text : List Char} (comment : IsComment text) :
    text.getLast? = some '/' := by
  obtain ⟨body, rfl, _⟩ := comment
  have chars : '/' :: '*' :: (body ++ ['*', '/']) = '/' :: '*' :: (body ++ ['*']) ++ ['/'] := by
    simp
  rw [chars, List.getLast?_concat]

section Runs

variable {quote c : Char} {cs : List Char}

/-- A run consists of characters that pass its test. -/
theorem forall_mem_run {test : Char → Bool} (first : test c = true) :
    ∀ d ∈ c :: cs.takeWhile test, test d = true :=
  List.forall_mem_cons.mpr ⟨first, fun _ mem => List.mem_takeWhile_imp mem⟩

theorem quotedRun_other (other : c ≠ quote) : quotedRun quote (c :: cs) =
    (c :: (quotedRun quote cs).1, (quotedRun quote cs).2) := by
  cases cs with
  | nil => simp [quotedRun, other]
  | cons d cs => rw [quotedRun, if_neg other]

theorem quotedRun_pair : quotedRun quote (quote :: quote :: cs) =
    (quote :: quote :: (quotedRun quote cs).1, (quotedRun quote cs).2) := by
  rw [quotedRun, if_pos rfl, if_pos rfl]

theorem quotedRun_last (last : cs.head? ≠ some quote) :
    quotedRun quote (quote :: cs) = ([quote], true, cs) := by
  cases cs with
  | nil => simp [quotedRun]
  | cons d cs =>
      have other : d ≠ quote := by simpa using last
      rw [quotedRun, if_pos rfl, if_neg other]

/-- The quote that closes is the first one that is not doubled. -/
theorem quotedRun_cases (quote : Char) (cs : List Char) :
    (∃ body rest, cs = body ++ quote :: rest ∧ Paired quote body ∧ rest.head? ≠ some quote ∧
      quotedRun quote cs = (body ++ [quote], true, rest)) ∨
    (Paired quote cs ∧ quotedRun quote cs = (cs, false, [])) := by
  match cs with
  | [] => exact .inr ⟨.nil, rfl⟩
  | c :: cs =>
    by_cases other : c ≠ quote
    · rcases quotedRun_cases quote cs with ⟨body, rest, split, paired, last, run⟩ | ⟨paired, run⟩
      · refine .inl ⟨c :: body, rest, by rw [split, List.cons_append], .char other paired, last, ?_⟩
        rw [quotedRun_other other, run, List.cons_append]
      · exact .inr ⟨.char other paired, by rw [quotedRun_other other, run]⟩
    · obtain rfl : c = quote := not_not.mp other
      by_cases last : cs.head? ≠ some c
      · exact .inl ⟨[], cs, rfl, .nil, last, quotedRun_last last⟩
      · obtain ⟨ds, rfl⟩ := List.head?_eq_some_iff.mp (not_not.mp last)
        rcases quotedRun_cases c ds with ⟨body, rest, split, paired, last, run⟩ | ⟨paired, run⟩
        · refine .inl ⟨c :: c :: body, rest, by rw [split]; rfl, .pair paired, last, ?_⟩
          rw [quotedRun_pair, run]
          rfl
        · exact .inr ⟨.pair paired, by rw [quotedRun_pair, run]⟩

/-- A block comment goes to the first end of one. -/
theorem blockRun_cases (cs : List Char) :
    (∃ body rest, cs = body ++ '*' :: '/' :: rest ∧ ¬ ['*', '/'] <:+: body ++ ['*'] ∧
      blockRun cs = (body ++ ['*', '/'], true, rest)) ∨
    (¬ ['*', '/'] <:+: cs ∧ blockRun cs = (cs, false, [])) := by
  fun_induction blockRun cs with
  | case1 => exact .inr ⟨by simp, rfl⟩
  | case2 cs => exact .inl ⟨[], cs, rfl, by decide, rfl⟩
  | case3 c cs noEnd run closed rest inner ih =>
      -- No end of a comment starts at the first character, so the end is further on or missing.
      have later {ds : List Char} (front : ds <+: cs) (none : ¬ ['*', '/'] <:+: ds) :
          ¬ ['*', '/'] <:+: c :: ds := by
        rw [List.infix_cons_iff, not_or]
        refine ⟨fun starts => ?_, none⟩
        obtain ⟨rfl, next⟩ := List.cons_prefix_cons.mp starts
        obtain ⟨tail, rfl⟩ := next.trans front
        exact noEnd tail rfl rfl
      rcases ih with ⟨body, rest', split, none, run'⟩ | ⟨none, run'⟩
      · obtain ⟨rfl, rfl, rfl⟩ : run = body ++ ['*', '/'] ∧ closed = true ∧ rest = rest' := by
          simpa [inner] using run'
        have front : body ++ ['*'] <+: cs := ⟨'/' :: rest, by simp [split]⟩
        exact .inl ⟨c :: body, rest, by rw [split, List.cons_append], later front none, rfl⟩
      · obtain ⟨rfl, rfl, rfl⟩ : run = cs ∧ closed = false ∧ rest = [] := by
          simpa [inner] using run'
        exact .inr ⟨later List.prefix_rfl none, rfl⟩

/-- A run with its end is between quotes, and one without takes all that is left. -/
theorem quoted_of_quotedRun {run rest : List Char} {closed : Bool}
    (taken : quotedRun quote cs = (run, closed, rest)) :
    (closed = true ∧ IsQuoted quote (quote :: run) ∧ rest.head? ≠ some quote) ∨
      (closed = false ∧ IsHalfQuoted quote (quote :: run) ∧ rest = []) := by
  rcases quotedRun_cases quote cs with ⟨body, _, _, paired, last, run'⟩ | ⟨paired, run'⟩
  · cases run'.symm.trans taken
    exact .inl ⟨rfl, ⟨body, rfl, paired⟩, last⟩
  · cases run'.symm.trans taken
    exact .inr ⟨rfl, ⟨cs, rfl, paired⟩, rfl⟩

/-- So it is with a block comment. -/
theorem comment_of_blockRun {run rest : List Char} {closed : Bool}
    (taken : blockRun cs = (run, closed, rest)) :
    (closed = true ∧ IsComment ('/' :: '*' :: run)) ∨
      (closed = false ∧ IsOpenComment ('/' :: '*' :: run) ∧ rest = []) := by
  rcases blockRun_cases cs with ⟨body, _, _, none, run'⟩ | ⟨none, run'⟩
  · cases run'.symm.trans taken
    exact .inl ⟨rfl, body, rfl, none⟩
  · cases run'.symm.trans taken
    exact .inr ⟨rfl, ⟨cs, rfl, none⟩, rfl⟩

end Runs

namespace Lexeme

/-! ## One behind the other -/

/-- The text of lexemes one behind the other. -/
def textOf (ls : List Lexeme) : List Char := ls.flatMap Lexeme.text

@[simp] theorem textOf_nil : textOf [] = [] := rfl

@[simp] theorem textOf_cons (l : Lexeme) (ls : List Lexeme) :
    textOf (l :: ls) = l.text ++ textOf ls := rfl

@[simp] theorem textOf_append (ls ms : List Lexeme) : textOf (ls ++ ms) = textOf ls ++ textOf ms :=
  List.flatMap_append

/-- The lexemes of a text make up the text. -/
theorem textOf_all (cs : List Char) : textOf (all cs) = cs := by
  induction cs using all.induct with
  | case1 => rw [all, textOf_nil]
  | case2 c cs ih => rw [all, textOf_cons, ih, next_append]

/-- Where a lexeme was cut off. -/
theorem exists_next {cs : List Char} {before behind : List Lexeme} {l : Lexeme}
    (split : all cs = before ++ l :: behind) :
    ∃ c ds, cs = textOf before ++ c :: ds ∧ next c ds = (l, textOf behind) := by
  induction before generalizing cs with
  | nil =>
      cases cs with
      | nil => simp [all] at split
      | cons c cs =>
          rw [all, List.nil_append] at split
          obtain ⟨first, rest⟩ := List.cons.inj split
          exact ⟨c, cs, rfl, Prod.ext first (by rw [← rest, textOf_all])⟩
  | cons m before ih =>
      cases cs with
      | nil => simp [all] at split
      | cons c cs =>
          rw [all, List.cons_append] at split
          obtain ⟨first, rest⟩ := List.cons.inj split
          obtain ⟨d, ds, chars, cut⟩ := ih rest
          refine ⟨d, ds, ?_, cut⟩
          rw [textOf_cons, List.append_assoc, ← chars, ← first, next_append]

/-! ## What a piece looks like -/

/-- A lexeme is what its token says, with these texts before and behind it. -/
structure Fits (before : List Char) (l : Lexeme) (behind : List Char) : Prop where
  nonempty : l.text ≠ []
  word : ∀ w, l.token = .word w → l.text = w.toList ∧ (∀ c ∈ l.text, isWordChar c = true) ∧
    (∀ c ∈ before.getLast?, isWordChar c = false) ∧ ∀ c ∈ behind.head?, isWordChar c = false
  string : l.token = .string true → IsQuoted '\'' l.text ∧ behind.head? ≠ some '\''
  quotedName : l.token = .quotedName true → IsQuoted '"' l.text ∧ behind.head? ≠ some '"'
  blockComment : l.token = .blockComment true → IsComment l.text
  openString : l.token = .string false → IsHalfQuoted '\'' l.text
  openName : l.token = .quotedName false → IsHalfQuoted '"' l.text
  openComment : l.token = .blockComment false → IsOpenComment l.text
  unfinished : l.token.isOpen = true → behind = []

variable {c d : Char} {cs ds before behind : List Char} {l : Lexeme}

theorem symbolToken_cases (c : Char) :
    symbolToken c = .openParen ∨ symbolToken c = .closeParen ∨ symbolToken c = .semicolon ∨
      symbolToken c = .comma ∨ symbolToken c = .symbol c := by
  unfold symbolToken
  split <;> simp

/-- What is cut off in front of a text fits, if no word goes on from before into it. -/
theorem fits_of_next (cut : next c cs = (l, behind))
    (apart : isWordChar c = true → ∀ d ∈ before.getLast?, isWordChar d = false) :
    Fits before l behind := by
  cases next_eq_iff.mp cut with
  | blank => constructor <;> simp [Token.isOpen]
  | string _ taken =>
      rcases quoted_of_quotedRun taken with ⟨rfl, quoted, last⟩ | ⟨rfl, half, rfl⟩
      · constructor <;> simp [Token.isOpen, quoted, last]
      · constructor <;> simp [half]
  | quotedName _ taken =>
      rcases quoted_of_quotedRun taken with ⟨rfl, quoted, last⟩ | ⟨rfl, half, rfl⟩
      · constructor <;> simp [Token.isOpen, quoted, last]
      · constructor <;> simp [half]
  | word word left =>
      have inside : ∀ d ∈ c :: cs.takeWhile isWordChar, isWordChar d = true := forall_mem_run word
      have stops : ∀ d ∈ behind.head?, isWordChar d = false := by
        intro d mem
        have stop := List.head?_dropWhile_not isWordChar cs
        rw [left, Option.mem_def.mp mem] at stop
        simpa using stop
      constructor
      case word =>
        rintro w same
        cases same
        exact ⟨by rw [String.toList_ofList], inside, apart word, stops⟩
      all_goals simp [Token.isOpen]
  | lineComment => constructor <;> simp [Token.isOpen]
  | blockComment _ taken =>
      rcases comment_of_blockRun taken with ⟨rfl, comment⟩ | ⟨rfl, comment, rfl⟩
      · constructor <;> simp [Token.isOpen, comment]
      · constructor <;> simp [comment]
  | symbol =>
      rcases symbolToken_cases c with same | same | same | same | same <;>
        constructor <;> simp [same, Token.isOpen]

/-- Nothing is cut off between two characters of a word. -/
theorem isWordChar_getLast?_of_next (cut : next c cs = (l, d :: ds)) (word : isWordChar d = true) :
    ∀ e ∈ l.text.getLast?, isWordChar e = false := by
  have ends {e : Char} {text : List Char} (last : text.getLast? = some e)
      (apart : isWordChar e = false) : ∀ x ∈ text.getLast?, isWordChar x = false := by
    simp [last, apart]
  have stopped {p : Char → Bool} {es : List Char} (stop : es.dropWhile p = d :: ds) :
      p d = false := by
    have first := List.head?_dropWhile_not p es
    rw [stop] at first
    simpa using first
  cases next_eq_iff.mp cut with
  | blank blank _ =>
      intro e last
      exact isWordChar_of_isSqlBlank (forall_mem_run blank e (List.mem_of_getLast? last))
  | string _ taken =>
      rcases quoted_of_quotedRun taken with ⟨_, quoted, _⟩ | ⟨_, _, left⟩
      · exact ends quoted.getLast? (by decide)
      · cases left
  | quotedName _ taken =>
      rcases quoted_of_quotedRun taken with ⟨_, quoted, _⟩ | ⟨_, _, left⟩
      · exact ends quoted.getLast? (by decide)
      · cases left
  | word _ left =>
      rw [stopped left] at word
      cases word
  | lineComment _ _ left =>
      have lineEnd : isLineEnd d = true := by simpa using stopped left
      rcases Bool.or_eq_true _ _ |>.mp lineEnd with same | same
      · rw [beq_iff_eq.mp same] at word
        exact absurd word (by decide)
      · rw [beq_iff_eq.mp same] at word
        exact absurd word (by decide)
  | blockComment _ taken =>
      rcases comment_of_blockRun taken with ⟨_, comment⟩ | ⟨_, _, left⟩
      · exact ends comment.getLast? (by decide)
      · cases left
  | symbol symbol _ => simp [symbol.notWord]

/-- Every lexeme of a text fits between what is before it and what is behind it. -/
theorem fits_of_split {before behind : List Lexeme} (split : all cs = before ++ l :: behind) :
    Fits (textOf before) l (textOf behind) := by
  obtain ⟨c, ds, _, cut⟩ := exists_next split
  refine fits_of_next cut fun word d last => ?_
  cases before using List.reverseRecOn with
  | nil => cases last
  | append_singleton before m =>
      obtain ⟨c', ds', _, cut'⟩ := exists_next (l := m) (by rw [split, List.append_assoc]; rfl)
      have nonempty : m.text ≠ [] := by
        have some := next_text_ne_nil c' ds'
        rwa [cut'] at some
      have chars : textOf (l :: behind) = c :: ds := by
        have whole := next_append c ds
        rwa [cut] at whole
      rw [textOf_append, textOf_cons, textOf_nil, List.append_nil,
        List.getLast?_append_of_ne_nil _ nonempty] at last
      exact isWordChar_getLast?_of_next (cut'.trans (by rw [← chars]; rfl)) word d last

/-- A lexeme without its end is the last one. -/
theorem eq_nil_of_isOpen {before behind : List Lexeme} (split : all cs = before ++ l :: behind)
    (unfinished : l.token.isOpen = true) : behind = [] := by
  cases behind with
  | nil => rfl
  | cons m behind =>
      have next : all cs = (before ++ [l]) ++ m :: behind := by rw [split, List.append_assoc]; rfl
      have left := (fits_of_split split).unfinished unfinished
      rw [textOf_cons, List.append_eq_nil_iff] at left
      exact absurd left.1 (fits_of_split next).nonempty

theorem getLast?_of_isOpen (mem : l ∈ all cs) (unfinished : l.token.isOpen = true) :
    (all cs).getLast? = some l := by
  obtain ⟨before, behind, split⟩ := List.append_of_mem mem
  rw [split, eq_nil_of_isOpen split unfinished, List.getLast?_concat]

end Lexeme

end RuleQuery.Sql
