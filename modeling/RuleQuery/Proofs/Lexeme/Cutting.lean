/-
# Where text is cut does not depend on what comes later

The lexer may look far ahead: for the end of a word, for a closing quote, for the end of a comment,
and, behind two hyphens, for the kind of the first line end. Still, a lexeme that ends inside a text
is cut off in the same way when the text goes on, because what the lexer looked for is in the text.
Only the last lexeme is open to what follows, and `Token.endsBefore` says when it ends all the same.

The one exception is a carriage return at the very end: a line feed behind it makes another line end
of the two, and so may turn two hyphens far in front of them into a comment. So the text that is
added must not start with a line feed.

`Cut` is the relation of a text to the lexeme in front of it and to what is left, with one case for
each kind of lexeme. It holds of what the lexer does and of nothing else, and the proofs go by its
cases.
-/

import Mathlib.Tactic.ByContra
import RuleQuery.Sql.Lexeme

namespace RuleQuery.Sql

/-- A token whose text ends without its closing quote or the end of its comment. -/
def Token.isOpen : Token → Bool
  | .string closed | .quotedName closed | .blockComment closed => !closed
  | _ => false

/-- A token that is complete at the end of a text and is not continued by a character. -/
def Token.endsBefore (d : Char) : Token → Bool
  | .word _ => !isWordChar d
  | .string closed => closed && d != '\''
  | .quotedName closed => closed && d != '"'
  | .lineComment => false
  | .blockComment closed => closed
  | .symbol c => !(c == '-' && d == '-') && !(c == '/' && d == '*')
  | .blank => !isSqlBlank d
  | _ => true

@[simp] theorem Token.endsBefore_word {d : Char} {text : String} :
    (Token.word text).endsBefore d = !isWordChar d := rfl

@[simp] theorem Token.endsBefore_string {d : Char} {closed : Bool} :
    (Token.string closed).endsBefore d = (closed && d != '\'') := rfl

@[simp] theorem Token.endsBefore_quotedName {d : Char} {closed : Bool} :
    (Token.quotedName closed).endsBefore d = (closed && d != '"') := rfl

@[simp] theorem Token.endsBefore_blockComment {d : Char} {closed : Bool} :
    (Token.blockComment closed).endsBefore d = closed := rfl

@[simp] theorem Token.endsBefore_symbol {c d : Char} : (Token.symbol c).endsBefore d =
    (!(c == '-' && d == '-') && !(c == '/' && d == '*')) := rfl

@[simp] theorem Token.endsBefore_blank {d : Char} :
    Token.blank.endsBefore d = !isSqlBlank d := rfl

/-! ## Runs of characters -/

section Runs

variable {α : Type} {p : α → Bool} {as bs rest : List α} {a : α}

/-- A run that ends inside a text is not changed by what follows. -/
theorem run_append_of_stop (stop : as.dropWhile p = a :: rest) :
    (as ++ bs).takeWhile p = as.takeWhile p ∧ (as ++ bs).dropWhile p = a :: rest ++ bs := by
  have inside : (as.takeWhile p).length ≠ as.length := by
    have whole := congrArg List.length (List.takeWhile_append_dropWhile (p := p) (l := as))
    rw [List.length_append, stop, List.length_cons] at whole
    omega
  rw [List.takeWhile_append, if_neg inside, List.dropWhile_append, stop]
  exact ⟨rfl, rfl⟩

/-- A run up to the end of a text ends there if what follows does not continue it. -/
theorem run_append_of_end (done : as.dropWhile p = []) (stop : p a = false) :
    (as ++ a :: bs).takeWhile p = as.takeWhile p ∧ (as ++ a :: bs).dropWhile p = a :: bs := by
  have whole : as.takeWhile p = as := by
    have split := List.takeWhile_append_dropWhile (p := p) (l := as)
    rwa [done, List.append_nil] at split
  rw [List.takeWhile_append, List.dropWhile_append, done, whole]
  simp [stop]

end Runs

variable {cs ds r run : List Char} {c d : Char} {closed : Bool}

/-- A quote that is closed inside a text is closed there whatever follows. -/
theorem quotedRun_append_of_stop {quote : Char}
    (cut : quotedRun quote cs = (run, closed, d :: ds)) :
    quotedRun quote (cs ++ r) = (run, closed, d :: ds ++ r) := by
  fun_induction quotedRun quote cs generalizing run with
  | case1 => simp at cut
  | case2 => simp at cut
  | case3 => simp at cut
  | case4 es inside closed' rest inner ih =>
      obtain ⟨rfl, rfl, rfl⟩ := by simpa using cut
      simp [quotedRun, ih inner]
  | case5 e es other =>
      obtain ⟨rfl, rfl, rfl, rfl⟩ := by simpa using cut
      simp [quotedRun, other]
  | case6 e f es other inside closed' rest inner ih =>
      obtain ⟨rfl, rfl, rfl⟩ := by simpa using cut
      have later := ih inner
      rw [List.cons_append] at later
      simp [quotedRun, other, later]

/-- A quote that is closed at the end of a text is closed there if no second quote follows. -/
theorem quotedRun_append_of_end {quote : Char} (cut : quotedRun quote cs = (run, true, []))
    (other : d ≠ quote) : quotedRun quote (cs ++ d :: r) = (run, true, d :: r) := by
  fun_induction quotedRun quote cs generalizing run with
  | case1 => simp at cut
  | case2 =>
      obtain rfl := by simpa using cut
      simp [quotedRun, other]
  | case3 => simp at cut
  | case4 es inside closed' rest inner ih =>
      obtain ⟨rfl, rfl, rfl⟩ := by simpa using cut
      simp [quotedRun, ih inner]
  | case5 => simp at cut
  | case6 e f es different inside closed' rest inner ih =>
      obtain ⟨rfl, rfl, rfl⟩ := by simpa using cut
      have later := ih inner
      rw [List.cons_append] at later
      simp [quotedRun, different, later]

/-- A block comment that has an end ends there whatever follows. -/
theorem blockRun_append_of_end (cut : blockRun cs = (run, closed, ds))
    (ended : closed = true ∨ ds ≠ []) : blockRun (cs ++ r) = (run, closed, ds ++ r) := by
  fun_induction blockRun cs generalizing run with
  | case1 =>
      obtain ⟨rfl, rfl, rfl⟩ := by simpa using cut
      simp at ended
  | case2 es =>
      obtain ⟨rfl, rfl, rfl⟩ := by simpa using cut
      simp [blockRun]
  | case3 e es other inside closed' rest inner ih =>
      obtain ⟨rfl, rfl, rfl⟩ := by simpa using cut
      cases es with
      | nil =>
          obtain ⟨rfl, rfl, rfl⟩ := by simpa [blockRun] using inner
          simp at ended
      | cons f es =>
          have later := ih inner
          rw [List.cons_append] at later
          rw [List.cons_append, List.cons_append, blockRun, later]
          intro gs star slash
          obtain ⟨rfl, rfl⟩ := by simpa using slash
          exact other es star rfl

/-- Two hyphens start a comment unless the first line end behind them is a lone return. -/
theorem opensLineComment_of_stop (stop : cs.dropWhile (fun e => !isLineEnd e) = d :: ds) :
    opensLineComment cs = (d != '\r' || ds.head? == some '\n') := by
  rw [opensLineComment, stop]
  by_cases lone : d = '\r'
  · subst lone
    rcases ds with _ | ⟨e, ds⟩
    · rfl
    · by_cases feed : e = '\n' <;> simp [feed]
  · split <;> simp_all

theorem opensLineComment_of_end (done : cs.dropWhile (fun e => !isLineEnd e) = []) :
    opensLineComment cs = true := by
  rw [opensLineComment, done]

/-- Whether two hyphens start a comment is settled by the first line end behind them. -/
theorem opensLineComment_append (stop : cs.dropWhile (fun e => !isLineEnd e) = d :: ds)
    (noFeed : r.head? ≠ some '\n') : opensLineComment (cs ++ r) = opensLineComment cs := by
  rw [opensLineComment_of_stop stop, opensLineComment_of_stop (run_append_of_stop stop).2]
  cases ds with
  | nil =>
      cases r with
      | nil => rfl
      | cons e r =>
          have other : e ≠ '\n' := by simpa using noFeed
          simp [other]
  | cons e ds => rfl

/-! ## What a lexeme may start with -/

namespace Lexeme

/-- A character that is a symbol of its own in front of a text. -/
structure IsSymbol (c : Char) (cs : List Char) : Prop where
  notBlank : isSqlBlank c = false
  notWord : isWordChar c = false
  unquoted : c ≠ '\'' ∧ c ≠ '"'
  noLineComment : ∀ rest, c = '-' → cs = '-' :: rest → opensLineComment rest = false
  noBlockComment : ∀ rest, c = '/' → cs ≠ '*' :: rest

/-- The ways in which a lexeme may start. -/
theorem start_cases (c : Char) (cs : List Char) :
    isSqlBlank c = true ∨ c = '\'' ∨ c = '"' ∨ isWordChar c = true ∨
      (∃ rest, c = '-' ∧ cs = '-' :: rest ∧ opensLineComment rest = true) ∨
      (∃ rest, c = '/' ∧ cs = '*' :: rest) ∨ IsSymbol c cs := by
  by_contra none
  simp only [not_or, not_exists, not_and, Bool.not_eq_true] at none
  obtain ⟨notBlank, single, double, notWord, noLineComment, noBlockComment, noSymbol⟩ := none
  exact noSymbol ⟨notBlank, notWord, ⟨single, double⟩, noLineComment, noBlockComment⟩

theorem next_blank (blank : isSqlBlank c = true) :
    next c cs = (⟨.blank, c :: cs.takeWhile isSqlBlank⟩, cs.dropWhile isSqlBlank) := by
  unfold next
  rw [if_pos blank]

theorem next_string :
    next '\'' cs = (⟨.string (quotedRun '\'' cs).2.1, '\'' :: (quotedRun '\'' cs).1⟩,
      (quotedRun '\'' cs).2.2) := rfl

theorem next_quotedName :
    next '"' cs = (⟨.quotedName (quotedRun '"' cs).2.1, '"' :: (quotedRun '"' cs).1⟩,
      (quotedRun '"' cs).2.2) := rfl

theorem next_word (word : isWordChar c = true) :
    next c cs = (⟨.word (String.ofList (c :: cs.takeWhile isWordChar)),
      c :: cs.takeWhile isWordChar⟩, cs.dropWhile isWordChar) := by
  have apart (d : Char) (other : isWordChar d = false) : c ≠ d := by
    rintro rfl
    simp [word] at other
  have notBlank : isSqlBlank c = false := by
    simp [isSqlBlank, apart ' ' (by decide), apart '\t' (by decide), apart '\r' (by decide),
      apart '\n' (by decide)]
  simp [next, notBlank, apart '\'' (by decide), apart '"' (by decide), word]

theorem next_lineComment (opens : opensLineComment cs = true) :
    next '-' ('-' :: cs) = (⟨.lineComment, '-' :: '-' :: cs.takeWhile fun d => !isLineEnd d⟩,
      cs.dropWhile fun d => !isLineEnd d) := by
  have symbol : isSqlBlank '-' = false ∧ isWordChar '-' = false := by decide
  simp [next, symbol, opens]

theorem next_blockComment :
    next '/' ('*' :: cs) = (⟨.blockComment (blockRun cs).2.1, '/' :: '*' :: (blockRun cs).1⟩,
      (blockRun cs).2.2) := by
  have symbol : isSqlBlank '/' = false ∧ isWordChar '/' = false := by decide
  simp [next, symbol]

theorem IsSymbol.next (symbol : IsSymbol c cs) : next c cs = (⟨symbolToken c, [c]⟩, cs) := by
  unfold Lexeme.next
  rw [if_neg (by simp [symbol.notBlank]), if_neg symbol.unquoted.1,
    if_neg symbol.unquoted.2, if_neg (by simp [symbol.notWord])]
  split
  next rest =>
    rw [symbol.noLineComment rest rfl rfl, if_neg (by simp)]
    rfl
  next rest => exact absurd rfl (symbol.noBlockComment rest rfl)
  next => rfl

/-- How a lexeme is cut off in front of a text: one case for each kind, and what is left behind it.
-/
inductive Cut (c : Char) (cs rest : List Char) : Lexeme → Prop
  | blank (blank : isSqlBlank c = true) (left : cs.dropWhile isSqlBlank = rest) :
      Cut c cs rest ⟨.blank, c :: cs.takeWhile isSqlBlank⟩
  | string {run : List Char} {closed : Bool} (quote : c = '\'')
      (taken : quotedRun '\'' cs = (run, closed, rest)) :
      Cut c cs rest ⟨.string closed, '\'' :: run⟩
  | quotedName {run : List Char} {closed : Bool} (quote : c = '"')
      (taken : quotedRun '"' cs = (run, closed, rest)) :
      Cut c cs rest ⟨.quotedName closed, '"' :: run⟩
  | word (word : isWordChar c = true) (left : cs.dropWhile isWordChar = rest) :
      Cut c cs rest
        ⟨.word (String.ofList (c :: cs.takeWhile isWordChar)), c :: cs.takeWhile isWordChar⟩
  | lineComment {tail : List Char} (hyphens : c = '-' ∧ cs = '-' :: tail)
      (opens : opensLineComment tail = true)
      (left : tail.dropWhile (fun d => !isLineEnd d) = rest) :
      Cut c cs rest ⟨.lineComment, '-' :: '-' :: tail.takeWhile fun d => !isLineEnd d⟩
  | blockComment {tail run : List Char} {closed : Bool} (opening : c = '/' ∧ cs = '*' :: tail)
      (taken : blockRun tail = (run, closed, rest)) :
      Cut c cs rest ⟨.blockComment closed, '/' :: '*' :: run⟩
  | symbol (symbol : IsSymbol c cs) (left : cs = rest) : Cut c cs rest ⟨symbolToken c, [c]⟩

theorem Cut.next_eq {l : Lexeme} (cut : Cut c cs r l) : next c cs = (l, r) := by
  cases cut with
  | blank blank left => rw [next_blank blank, left]
  | string quote taken => rw [quote, next_string, taken]
  | quotedName quote taken => rw [quote, next_quotedName, taken]
  | word word left => rw [next_word word, left]
  | lineComment hyphens opens left => rw [hyphens.1, hyphens.2, next_lineComment opens, left]
  | blockComment opening taken => rw [opening.1, opening.2, next_blockComment, taken]
  | symbol symbol left => rw [symbol.next, left]

theorem cut_next (c : Char) (cs : List Char) : Cut c cs (next c cs).2 (next c cs).1 := by
  rcases start_cases c cs with
    blank | rfl | rfl | word | ⟨tail, rfl, rfl, opens⟩ | ⟨tail, rfl, rfl⟩ | symbol
  · rw [next_blank blank]
    exact .blank blank rfl
  · exact .string rfl rfl
  · exact .quotedName rfl rfl
  · rw [next_word word]
    exact .word word rfl
  · rw [next_lineComment opens]
    exact .lineComment ⟨rfl, rfl⟩ opens rfl
  · rw [next_blockComment]
    exact .blockComment ⟨rfl, rfl⟩ rfl
  · rw [symbol.next]
    exact .symbol symbol rfl

/-- The relation holds of what the lexer cuts off and of nothing else. -/
theorem next_eq_iff {l : Lexeme} : next c cs = (l, r) ↔ Cut c cs r l := by
  refine ⟨fun cut => ?_, Cut.next_eq⟩
  have whole := cut_next c cs
  rwa [cut] at whole

/-! ## Lexemes in a longer text -/

theorem IsSymbol.append (symbol : IsSymbol c (d :: ds)) (noFeed : r.head? ≠ some '\n') :
    IsSymbol c (d :: ds ++ r) := by
  refine { symbol with noLineComment := ?_, noBlockComment := ?_ }
  · intro rest hyphen same
    obtain ⟨rfl, rfl⟩ : d = '-' ∧ ds ++ r = rest := by simpa using same
    have closed := symbol.noLineComment ds hyphen rfl
    cases stop : ds.dropWhile fun e => !isLineEnd e with
    | nil => simp [opensLineComment_of_end stop] at closed
    | cons e es => rwa [opensLineComment_append stop noFeed]
  · intro rest slash same
    obtain ⟨rfl, rfl⟩ : d = '*' ∧ ds ++ r = rest := by simpa using same
    exact symbol.noBlockComment ds slash rfl

/-- A lexeme that ends inside a text is cut off there whatever follows. -/
theorem next_append_of_stop {l : Lexeme} (cut : next c cs = (l, d :: ds))
    (noFeed : r.head? ≠ some '\n') : next c (cs ++ r) = (l, d :: ds ++ r) := by
  rw [next_eq_iff] at cut
  cases cut with
  | blank blank left =>
      rw [next_blank blank, (run_append_of_stop left).1, (run_append_of_stop left).2]
  | string quote taken => exact Cut.next_eq (.string quote (quotedRun_append_of_stop taken))
  | quotedName quote taken => exact Cut.next_eq (.quotedName quote (quotedRun_append_of_stop taken))
  | word word left =>
      rw [next_word word, (run_append_of_stop left).1, (run_append_of_stop left).2]
  | lineComment hyphens opens left =>
      obtain ⟨rfl, rfl⟩ := hyphens
      have opens' := (opensLineComment_append left noFeed).trans opens
      rw [List.cons_append, next_lineComment opens', (run_append_of_stop left).1,
        (run_append_of_stop left).2]
  | blockComment opening taken =>
      have later := blockRun_append_of_end (r := r) taken (.inr (by simp))
      exact Cut.next_eq (.blockComment ⟨opening.1, by rw [opening.2]; rfl⟩ later)
  | symbol symbol left =>
      obtain rfl := left
      exact (symbol.append noFeed).next

/-- A lexeme that ends with a text ends there too if it is complete and not continued. -/
theorem next_append_of_end {l : Lexeme} (cut : next c cs = (l, []))
    (ends : l.token.endsBefore d = true) : next c (cs ++ d :: r) = (l, d :: r) := by
  rw [next_eq_iff] at cut
  cases cut with
  | blank blank left =>
      have stop : isSqlBlank d = false := by simpa using ends
      rw [next_blank blank, (run_append_of_end left stop).1, (run_append_of_end left stop).2]
  | string quote taken =>
      obtain ⟨rfl, other⟩ := by simpa using ends
      exact Cut.next_eq (.string quote (quotedRun_append_of_end taken other))
  | quotedName quote taken =>
      obtain ⟨rfl, other⟩ := by simpa using ends
      exact Cut.next_eq (.quotedName quote (quotedRun_append_of_end taken other))
  | word word left =>
      have stop : isWordChar d = false := by simpa using ends
      rw [next_word word, (run_append_of_end left stop).1, (run_append_of_end left stop).2]
  | lineComment => exact absurd ends Bool.false_ne_true
  | blockComment opening taken =>
      have later := blockRun_append_of_end (r := d :: r) taken (.inl ends)
      exact Cut.next_eq (.blockComment ⟨opening.1, by rw [opening.2]; rfl⟩ later)
  | symbol symbol left =>
      obtain rfl := left
      refine IsSymbol.next { symbol with noLineComment := ?_, noBlockComment := ?_ }
      · rintro rest rfl same
        obtain ⟨rfl, rfl⟩ : d = '-' ∧ r = rest := by simpa using same
        exact absurd ends (by decide)
      · rintro rest rfl same
        obtain ⟨rfl, rfl⟩ : d = '*' ∧ r = rest := by simpa using same
        exact absurd ends (by decide)

/-- Of the lexemes of a text, only the last one depends on what follows it. -/
theorem exists_last {a : List Char} {l : Lexeme} (last : (all a).getLast? = some l)
    (noFeed : d ≠ '\n') : ∃ ls c cs, next c cs = (l, []) ∧ all a = ls ++ [l] ∧
      ∀ r, all (a ++ d :: r) = ls ++ all (c :: (cs ++ d :: r)) := by
  induction a using all.induct with
  | case1 => simp [all] at last
  | case2 c cs ih =>
      cases cut : next c cs with
      | mk m rest =>
          rw [cut] at ih
          rw [all, cut] at last ⊢
          cases rest with
          | nil =>
              obtain rfl : m = l := by simpa [all] using last
              exact ⟨[], c, cs, cut, by simp [all], fun r => rfl⟩
          | cons e rest =>
              have later : (all (e :: rest)).getLast? = some l := by
                rw [all] at last ⊢
                rwa [List.getLast?_cons_cons] at last
              obtain ⟨ls, c', cs', cut', whole, behind⟩ := ih later
              refine ⟨m :: ls, c', cs', cut', by rw [whole, List.cons_append], fun r => ?_⟩
              rw [List.cons_append, all, next_append_of_stop cut (by simpa using noFeed)]
              exact congrArg (m :: ·) (behind r)

/-- A text whose last lexeme is complete and not continued is cut up on its own. -/
theorem all_append {a : List Char} (ends : ∀ l ∈ (all a).getLast?, l.token.endsBefore d = true)
    (noFeed : d ≠ '\n') : all (a ++ d :: r) = all a ++ all (d :: r) := by
  cases last : (all a).getLast? with
  | none =>
      rw [List.getLast?_eq_none_iff] at last
      cases a with
      | nil => rw [last, List.nil_append, List.nil_append]
      | cons c cs => simp [all] at last
  | some l =>
      obtain ⟨ls, c, cs, cut, whole, behind⟩ := exists_last last noFeed
      rw [behind, whole, all, next_append_of_end cut (ends l last), List.append_assoc]
      rfl

end Lexeme

end RuleQuery.Sql
