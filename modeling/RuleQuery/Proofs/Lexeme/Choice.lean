/-
# Cutting as a repeated choice of parsers

A parser takes something from the front of a text, or fails. The lexer can be put together from
small parsers: eleven of them are tried in order, for the blanks, the comments, the quoted texts,
the words and the single characters, the first that succeeds gives a token, and this is repeated as
long as one succeeds. Between the quotes two parsers are repeated in the same way.

Put together like this, much could go wrong: a repetition ends at the first failure, wherever that
is, and it fails as a whole if it comes to a parser that succeeds without taking anything, since
that would go on for ever. `Parser.many_lexeme` says that neither happens: the repetition succeeds
on every text, leaves nothing over, and gives the lexemes of `Lexeme.all`.
-/

import RuleQuery.Proofs.Lexeme.Pieces

namespace RuleQuery.Sql

/-- A parser gives what it has read from the front of a text and the rest, or fails. -/
abbrev Parser := StateT (List Char) Option

namespace Parser

variable {α β : Type}

/-- Exactly this text. -/
def tag (text : List Char) : Parser Unit := fun cs =>
  (text.isPrefixOf? cs).map fun rest => ((), rest)

/-- One character or more that pass a test, as many as there are. -/
def takeWhile1 (test : Char → Bool) : Parser (List Char) := fun cs =>
  if (cs.takeWhile test).isEmpty then none else some (cs.takeWhile test, cs.dropWhile test)

/-- What is in front of the first place where this text starts. -/
def takeUntil (text : List Char) : Parser (List Char)
  | [] => if text.isEmpty then some ([], []) else none
  | c :: cs =>
    if text.isPrefixOf (c :: cs) then some ([], c :: cs)
    else (takeUntil text cs).map fun (run, rest) => (c :: run, rest)

/-- What is in front of the next line end, which must not be a lone carriage return. -/
def takeLine : Parser (List Char) := fun cs =>
  if opensLineComment cs then
    some (cs.takeWhile fun c => !isLineEnd c, cs.dropWhile fun c => !isLineEnd c)
  else none

/-- All that is left. -/
def takeRest : Parser (List Char) := fun cs => some (cs, [])

/-- Any single character. -/
def takeChar : Parser Char
  | [] => none
  | c :: cs => some (c, cs)

/-- The first of some parsers that succeeds. -/
def firstOf : List (Parser α) → Parser α
  | [] => failure
  | p :: ps => p <|> firstOf ps

/-- A parser as often as it succeeds. It must take something each time. -/
def many (p : Parser α) : Parser (List α) := fun cs =>
  match p cs with
  | none => some ([], cs)
  | some (a, rest) =>
    if rest.length < cs.length then (many p rest).map fun (as, left) => (a :: as, left)
    else none
termination_by cs => cs.length

/-- What stands between quotes, a piece at a time: other characters, or a doubled quote. -/
def quotedPiece (quote : Char) : Parser Unit :=
  (do let _ ← takeWhile1 (· != quote)) <|> tag [quote, quote]

/-- A quoted text; whether its closing quote is there. -/
def quoted (quote : Char) : Parser Bool := do
  tag [quote]
  let _ ← many (quotedPiece quote)
  return (← optional (tag [quote])).isSome

/-- A comment up to the line end. -/
def lineComment : Parser Unit := do
  tag ['-', '-']
  let _ ← takeLine

/-- A block comment; whether its end is there. -/
def blockComment : Parser Bool := do
  tag ['/', '*']
  (do let _ ← takeUntil ['*', '/']; tag ['*', '/']; return true)
    <|> (do let _ ← takeRest; return false)

/-- The parsers of single characters. The last one takes what no other parser has taken. -/
def singles : List (Parser Token) :=
  [ do tag ['(']; return .openParen,
    do tag [')']; return .closeParen,
    do tag [';']; return .semicolon,
    do tag [',']; return .comma,
    do return .symbol (← takeChar) ]

/-- The parsers of the tokens, in the order in which they are tried. -/
def alternatives : List (Parser Token) :=
  [ do let _ ← takeWhile1 isSqlBlank; return .blank,
    do lineComment; return .lineComment,
    do return .blockComment (← blockComment),
    do return .string (← quoted '\''),
    do return .quotedName (← quoted '"'),
    do return .word (String.ofList (← takeWhile1 isWordChar)) ] ++ singles

/-- The token in front of a text. -/
def token : Parser Token := firstOf alternatives

/-- The token in front of a text, with the piece of the text that was taken for it. -/
def lexeme : Parser Lexeme := do
  let before ← get
  let token ← token
  let rest ← get
  return ⟨token, before.take (before.length - rest.length)⟩

/-! ## What the parsers give -/

variable {p q : Parser α} {ps : List (Parser α)} {f : α → Parser β} {a : α}
  {c d quote : Char} {cs rest text : List Char} {test : Char → Bool}

@[simp] theorem pure_apply : (pure a : Parser α) cs = some (a, cs) := rfl

@[simp] theorem bind_apply : (p >>= f) cs = (p cs).bind fun r => f r.1 r.2 := rfl

@[simp] theorem map_apply {g : α → β} : (g <$> p) cs = (p cs).map fun r => (g r.1, r.2) := by
  show (p cs).bind _ = _
  cases p cs <;> rfl

@[simp] theorem orElse_apply : (p <|> q) cs = (p cs).or (q cs) := by
  show (p cs <|> q cs) = _
  cases p cs <;> rfl

@[simp] theorem firstOf_cons : firstOf (p :: ps) cs = (p cs).or (firstOf ps cs) := orElse_apply

@[simp] theorem tag_nil : tag [] cs = some ((), cs) := by
  cases cs <;> rfl

@[simp] theorem tag_end : tag (d :: text) [] = none := rfl

@[simp] theorem tag_cons : tag (d :: text) (c :: cs) = if c = d then tag text cs else none := by
  by_cases same : c = d
  · simp [tag, List.isPrefixOf?, same]
  · simp [tag, List.isPrefixOf?, same, Ne.symm same]

@[simp] theorem takeWhile1_cons : takeWhile1 test (c :: cs) =
    if test c then some (c :: cs.takeWhile test, cs.dropWhile test) else none := by
  by_cases passes : test c = true <;> simp [takeWhile1, passes]

/-- A parser that fails is repeated no further. -/
theorem many_of_none (fails : p cs = none) : many p cs = some ([], cs) := by
  rw [many, fails]

theorem many_of_some (reads : p cs = some (a, rest)) (shorter : rest.length < cs.length) :
    many p cs = (many p rest).map fun (as, left) => (a :: as, left) := by
  rw [many, reads]
  exact if_pos shorter

/-! ## Quoted texts and block comments -/

theorem Paired.dropWhile {body : List Char} (paired : Paired quote body) :
    Paired quote (body.dropWhile (· != quote)) := by
  induction paired with
  | nil => exact .nil
  | char other _ ih => rwa [List.dropWhile_cons_of_pos (by simpa using other)]
  | pair rest _ => rw [List.dropWhile_cons_of_neg (by simp)]; exact .pair rest

/-- The pieces between two quotes are taken up to the quote that closes, or to the end. -/
theorem many_quotedPiece {body : List Char} (paired : Paired quote body)
    (last : rest = [] ∨ ∃ tail, rest = quote :: tail ∧ tail.head? ≠ some quote) :
    ∃ pieces, many (quotedPiece quote) (body ++ rest) = some (pieces, rest) := by
  match body, paired with
  | _, .nil =>
      have fails : quotedPiece quote rest = none := by
        rcases last with rfl | ⟨tail, rfl, single⟩
        · rfl
        · cases tail with
          | nil => simp [quotedPiece]
          | cons d tail =>
              have other : d ≠ quote := by simpa using single
              simp [quotedPiece, other]
      exact ⟨[], many_of_none fails⟩
  | _, @Paired.char _ c cs other paired =>
      have stop : (cs ++ rest).dropWhile (· != quote) = cs.dropWhile (· != quote) ++ rest := by
        have closes : rest.dropWhile (· != quote) = rest := by
          rcases last with rfl | ⟨tail, rfl, _⟩ <;> simp
        rw [List.dropWhile_append, closes]
        split
        next empty => rw [List.isEmpty_iff.mp empty, List.nil_append]
        next => rfl
      have reads : quotedPiece quote (c :: cs ++ rest) =
          some ((), cs.dropWhile (· != quote) ++ rest) := by
        simp [quotedPiece, other, stop]
      have shorter := (cs.dropWhile_sublist (· != quote)).length_le
      obtain ⟨pieces, more⟩ := many_quotedPiece (Paired.dropWhile paired) last
      refine ⟨() :: pieces, ?_⟩
      rw [many_of_some reads (by simp only [List.length_append, List.length_cons]; omega), more]
      rfl
  | _, @Paired.pair _ cs paired =>
      have reads : quotedPiece quote (quote :: quote :: cs ++ rest) = some ((), cs ++ rest) := by
        simp [quotedPiece]
      obtain ⟨pieces, more⟩ := many_quotedPiece paired last
      refine ⟨() :: pieces, ?_⟩
      rw [many_of_some reads (by simp only [List.length_append, List.length_cons]; omega), more]
      rfl
termination_by body.length
decreasing_by all_goals simp only [List.length_cons]; omega

/-- Between quotes, the two repeated parsers find the quote that closes. -/
theorem quoted_cons : quoted quote (c :: cs) =
    if c = quote then some ((quotedRun quote cs).2.1, (quotedRun quote cs).2.2) else none := by
  by_cases opens : c = quote
  · subst opens
    rcases quotedRun_cases c cs with ⟨body, rest, rfl, paired, single, run⟩ | ⟨paired, run⟩
    · obtain ⟨pieces, taken⟩ := many_quotedPiece paired (.inr ⟨rest, rfl, single⟩)
      simp [quoted, optional, taken, run]
    · obtain ⟨pieces, taken⟩ := many_quotedPiece paired (.inl rfl)
      rw [List.append_nil] at taken
      simp [quoted, optional, taken, run]
  · simp [quoted, opens]

theorem lineComment_cons (opens : opensLineComment cs = true) : lineComment ('-' :: '-' :: cs) =
    some ((), cs.dropWhile fun c => !isLineEnd c) := by
  simp [lineComment, takeLine, opens]

theorem lineComment_of_not
    (none : ∀ rest, c = '-' → cs = '-' :: rest → opensLineComment rest = false) :
    lineComment (c :: cs) = .none := by
  by_cases hyphen : c = '-'
  · cases cs with
    | nil => simp [lineComment, hyphen]
    | cons d cs =>
        by_cases second : d = '-'
        · have closed := none cs hyphen (by rw [second])
          simp [lineComment, takeLine, hyphen, second, closed]
        · simp [lineComment, hyphen, second]
  · simp [lineComment, hyphen]

/-- What is in front of the first end of a comment. -/
theorem takeUntil_append {body : List Char} (first : ¬ ['*', '/'] <:+: body ++ ['*']) :
    takeUntil ['*', '/'] (body ++ '*' :: '/' :: rest) = some (body, '*' :: '/' :: rest) := by
  induction body with
  | nil => rfl
  | cons c body ih =>
      rw [List.cons_append, List.infix_cons_iff, not_or] at first
      have later : ¬ ['*', '/'] <+: c :: (body ++ '*' :: '/' :: rest) := by
        intro starts
        refine first.1 (List.prefix_of_prefix_length_le starts ⟨'/' :: rest, by simp⟩ ?_)
        simp
      rw [List.cons_append, takeUntil, if_neg (by simpa using later), ih first.2]
      rfl

theorem takeUntil_eq_none (none : ¬ ['*', '/'] <:+: cs) : takeUntil ['*', '/'] cs = .none := by
  induction cs with
  | nil => rfl
  | cons c cs ih =>
      rw [List.infix_cons_iff, not_or] at none
      rw [takeUntil, if_neg (by simpa using none.1), ih none.2]
      rfl

theorem blockComment_cons : blockComment ('/' :: '*' :: cs) =
    some ((blockRun cs).2.1, (blockRun cs).2.2) := by
  rcases blockRun_cases cs with ⟨body, rest, rfl, first, run⟩ | ⟨none, run⟩
  · simp [blockComment, takeUntil_append first, run]
  · simp [blockComment, takeUntil_eq_none none, takeRest, run]

theorem blockComment_of_not (none : ∀ rest, c = '/' → cs ≠ '*' :: rest) :
    blockComment (c :: cs) = .none := by
  by_cases slash : c = '/'
  · cases cs with
    | nil => simp [blockComment, slash]
    | cons d cs =>
        have other : d ≠ '*' := by
          rintro rfl
          exact none cs slash rfl
        simp [blockComment, slash, other]
  · simp [blockComment, slash]

/-! ## Tokens and lexemes -/

theorem singles_cons : firstOf singles (c :: cs) = some (symbolToken c, cs) := by
  simp only [singles, symbolToken]
  split <;> simp_all [takeChar]

open Lexeme in
/-- The first parser that succeeds gives the token of the lexeme. -/
theorem token_cons : token (c :: cs) = some ((next c cs).1.token, (next c cs).2) := by
  rcases start_cases c cs with
    blank | rfl | rfl | word | ⟨tail, rfl, rfl, opens⟩ | ⟨tail, rfl, rfl⟩ | symbol
  · rw [next_blank blank]
    simp [token, alternatives, blank]
  · rw [next_string]
    have others : isSqlBlank '\'' = false := by decide
    simp [token, alternatives, others, lineComment_of_not, blockComment_of_not, quoted_cons]
  · rw [next_quotedName]
    have others : isSqlBlank '"' = false := by decide
    simp [token, alternatives, others, lineComment_of_not, blockComment_of_not, quoted_cons]
  · rw [next_word word]
    have apart (d : Char) (other : isWordChar d = false) : c ≠ d := by
      rintro rfl
      simp [word] at other
    have notBlank : isSqlBlank c = false := by
      rw [Bool.eq_false_iff]
      intro blank
      simp [isWordChar_of_isSqlBlank blank] at word
    have others : c ≠ '-' ∧ c ≠ '/' ∧ c ≠ '\'' ∧ c ≠ '"' :=
      ⟨apart _ (by decide), apart _ (by decide), apart _ (by decide), apart _ (by decide)⟩
    simp [token, alternatives, notBlank, others, lineComment_of_not, blockComment_of_not,
      quoted_cons, word]
  · rw [next_lineComment opens]
    have others : isSqlBlank '-' = false := by decide
    simp [token, alternatives, others, lineComment_cons opens]
  · rw [next_blockComment]
    have others : isSqlBlank '/' = false := by decide
    simp [token, alternatives, others, lineComment_of_not, blockComment_cons]
  · rw [symbol.next]
    simp [token, alternatives, singles_cons, symbol.notBlank, symbol.notWord, symbol.unquoted,
      lineComment_of_not symbol.noLineComment, blockComment_of_not symbol.noBlockComment,
      quoted_cons]

/-- The piece that is taken for a token is the text of its lexeme. -/
theorem lexeme_cons : lexeme (c :: cs) = some ((Lexeme.next c cs).1, (Lexeme.next c cs).2) := by
  have taken : (c :: cs).take ((c :: cs).length - (Lexeme.next c cs).2.length) =
      (Lexeme.next c cs).1.text := by
    have whole := Lexeme.next_append c cs
    rw [← whole, List.length_append, Nat.add_sub_cancel, List.take_left]
  have gives : lexeme (c :: cs) = (token (c :: cs)).bind fun r =>
      some (⟨r.1, (c :: cs).take ((c :: cs).length - r.2.length)⟩, r.2) := rfl
  rw [gives, token_cons, Option.bind_some, taken]

/-- The repetition never fails, leaves nothing over, and gives the lexemes of the text. -/
theorem many_lexeme (cs : List Char) : many lexeme cs = some (Lexeme.all cs, []) := by
  induction cs using Lexeme.all.induct with
  | case1 => rw [many_of_none (by rfl), Lexeme.all]
  | case2 c cs ih =>
      rw [many_of_some lexeme_cons (Lexeme.length_next_lt c cs), ih, Lexeme.all]
      rfl

end Parser

end RuleQuery.Sql
