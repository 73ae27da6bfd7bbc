/-
# Texts with a space between them

The lexer looks ahead without bound, so that in general the tokens of a text say nothing about the
tokens of a longer one. A space keeps texts apart: if no quote and no block comment is left open in
a text and it does not end in a line comment, then the tokens of the text, a space and any other
text are those of the one followed by those of the other. `EndsInCode` is this condition, and
`endsInCode_iff` says that no weaker one will do: a text without it swallows what follows.

A space does not keep lexemes apart. The blanks at the end of the first text, the space and the
blanks at the start of the second are one lexeme, so it is the tokens without the blanks that are
the same.
-/

import RuleQuery.Proofs.Lexeme.Pieces

namespace RuleQuery.Sql

/-! ## Runs that go on -/

section Runs

variable {quote : Char} {cs run rest u : List Char}

theorem Paired.append_of_not_mem (paired : Paired quote cs) (none : quote ∉ u) :
    Paired quote (cs ++ u) := by
  induction paired with
  | nil =>
      induction u with
      | nil => exact .nil
      | cons c u ih =>
          rw [List.mem_cons, not_or] at none
          exact .char (Ne.symm none.1) (ih none.2)
  | char other _ ih => exact .char other ih
  | pair _ ih => exact .pair ih

theorem Paired.quotedRun_eq (paired : Paired quote cs) : quotedRun quote cs = (cs, false, []) := by
  induction paired with
  | nil => rfl
  | char other _ ih => rw [quotedRun_other other, ih]
  | pair _ ih => rw [quotedRun_pair, ih]

/-- A quote that is left open stays open as long as there is no other quote. -/
theorem quotedRun_append_of_open (taken : quotedRun quote cs = (run, false, rest))
    (none : quote ∉ u) : quotedRun quote (cs ++ u) = (run ++ u, false, []) := by
  rcases quotedRun_cases quote cs with ⟨_, _, _, _, _, whole⟩ | ⟨paired, whole⟩
  · cases whole.symm.trans taken
  · cases whole.symm.trans taken
    exact (paired.append_of_not_mem none).quotedRun_eq

theorem not_infix_append (none : ¬ ['*', '/'] <:+: cs) (noSlash : '/' ∉ u) :
    ¬ ['*', '/'] <:+: cs ++ u := by
  induction u using List.reverseRecOn with
  | nil => rwa [List.append_nil]
  | append_singleton u c ih =>
      rw [List.mem_append, not_or, List.mem_singleton] at noSlash
      rw [← List.append_assoc, List.infix_concat_iff, not_or]
      refine ⟨fun ends => noSlash.2 ?_, ih noSlash.1⟩
      have last := ends.getLast (by simp)
      simpa using last

/-- A block comment that is left open stays open as long as there is no slash. -/
theorem blockRun_append_of_open (taken : blockRun cs = (run, false, rest)) (noSlash : '/' ∉ u) :
    blockRun (cs ++ u) = (run ++ u, false, []) := by
  rcases blockRun_cases cs with ⟨_, _, _, _, whole⟩ | ⟨none, whole⟩
  · cases whole.symm.trans taken
  · cases whole.symm.trans taken
    rcases blockRun_cases (cs ++ u) with ⟨body, rest, split, _, _⟩ | ⟨_, later⟩
    · exact absurd ⟨body, rest, by rw [split]; simp⟩ (not_infix_append none noSlash)
    · exact later

end Runs

/-! ## Texts that end in code -/

/-- Code ends before a character that is no part of it and makes no pair with its last one. -/
theorem Token.endsBefore_of_code {t : Token} {d : Char} (closed : t.isOpen = false)
    (code : t ≠ .lineComment) (notWord : isWordChar d = false) (unquoted : d ≠ '\'' ∧ d ≠ '"')
    (notBlank : t = .blank → isSqlBlank d = false)
    (single : ∀ c, t = .symbol c → (c = '-' → d ≠ '-') ∧ (c = '/' → d ≠ '*')) :
    t.endsBefore d = true := by
  cases t with
  | word text => simp [notWord]
  | string terminated | quotedName terminated | blockComment terminated =>
      have terminated : terminated = true := by simpa [isOpen] using closed
      simp [terminated, unquoted]
  | lineComment => exact absurd rfl code
  | symbol c => simpa [imp_iff_not_or] using single c rfl
  | blank => simp [notBlank rfl]
  | _ => rfl

namespace Lexeme

variable {a b cs rest u : List Char} {c : Char} {l : Lexeme}

/-- A text whose quotes and block comments have an end, and which ends in no line comment. -/
structure EndsInCode (a : List Char) : Prop where
  closed : ∀ l ∈ all a, l.token.isOpen = false
  uncommented : ∀ l ∈ (all a).getLast?, l.token ≠ .lineComment

instance (a : List Char) : Decidable (EndsInCode a) :=
  decidable_of_iff ((∀ l ∈ all a, l.token.isOpen = false) ∧
      ∀ l ∈ (all a).getLast?, l.token ≠ .lineComment)
    ⟨fun ⟨closed, uncommented⟩ => ⟨closed, uncommented⟩,
      fun ⟨closed, uncommented⟩ => ⟨closed, uncommented⟩⟩

/--
It is enough to look at the tokens. They do not show the blanks, so that this asks for more of a
text that ends in a line comment and a line end.
-/
theorem endsInCode_of_tokens (closed : ∀ t ∈ tokens a, t.isOpen = false)
    (uncommented : (tokens a).getLast? ≠ some .lineComment) : EndsInCode a where
  closed := by
    intro l mem
    by_cases blank : l.token = .blank
    · rw [blank]
      rfl
    · exact closed l.token (List.mem_filter.mpr ⟨List.mem_map_of_mem mem, by simpa using blank⟩)
  uncommented := by
    intro l last comment
    obtain ⟨ls, whole⟩ := List.getLast?_eq_some_iff.mp (Option.mem_def.mp last)
    exact uncommented (by simp [tokens, whole, comment])

/-- The last lexeme of a text that does not end in code. -/
theorem exists_last_of_not_endsInCode (unfinished : ¬ EndsInCode a) :
    ∃ l, (all a).getLast? = some l ∧ (l.token.isOpen = true ∨ l.token = .lineComment) := by
  by_contra none
  simp only [not_exists, not_and, not_or, Bool.not_eq_true] at none
  refine unfinished ⟨fun l mem => ?_, fun l last => (none l last).2⟩
  by_contra left
  rw [Bool.not_eq_false] at left
  have closed := (none l (getLast?_of_isOpen mem left)).1
  rw [left] at closed
  cases closed

/-! ## Behind code -/

/-- Blanks in front of a text do not show in the tokens. -/
theorem tokens_blanks (blanks : ∀ c ∈ a, isSqlBlank c = true) : tokens (a ++ b) = tokens b := by
  induction a with
  | nil => rfl
  | cons c a ih =>
      rw [List.forall_mem_cons] at blanks
      rw [List.cons_append, tokens_blank blanks.1, ih blanks.2]

/-- Only blanks have the token of blanks. -/
theorem isSqlBlank_of_next (cut : next c cs = (l, rest)) (token : l.token = .blank) :
    isSqlBlank c = true ∧ cs.dropWhile isSqlBlank = rest := by
  cases next_eq_iff.mp cut with
  | blank blank left => exact ⟨blank, left⟩
  | symbol =>
      rcases symbolToken_cases c with same | same | same | same | same <;> simp [same] at token
  | _ => cases token

/-- A space behind code and any text behind it leave the tokens of the code as they are. -/
theorem EndsInCode.tokens_append (code : EndsInCode a) (b : List Char) :
    tokens (a ++ ' ' :: b) = tokens a ++ tokens b := by
  obtain ⟨closed, uncommented⟩ := code
  have space : isSqlBlank ' ' = true := by decide
  by_cases blank : ∃ l, (all a).getLast? = some l ∧ l.token = .blank
  · -- The space joins the blanks at the end of the text: a lexeme changes, but does not show.
    obtain ⟨l, last, blank⟩ := blank
    obtain ⟨ls, c, cs, cut, whole, behind⟩ := exists_last (d := ' ') last (by decide)
    obtain ⟨first, done⟩ := isSqlBlank_of_next cut blank
    have blanks : ∀ d ∈ c :: cs, isSqlBlank d = true :=
      List.forall_mem_cons.mpr ⟨first, List.dropWhile_eq_nil_iff.mp done⟩
    have hidden : tokens (c :: (cs ++ ' ' :: b)) = tokens b := by
      rw [← List.cons_append, tokens_blanks blanks, tokens_blank space]
    rw [← hidden]
    simp [tokens, whole, behind, blank]
  · have ends : ∀ l ∈ (all a).getLast?, l.token.endsBefore ' ' = true := by
      intro l last
      refine Token.endsBefore_of_code (closed l (List.mem_of_getLast? last)) (uncommented l last)
        (by decide) (by decide) (fun same => absurd ⟨l, last, same⟩ blank) fun c _ => ?_
      exact ⟨fun _ => by decide, fun _ => by decide⟩
    rw [← tokens_blank space b]
    simp [tokens, all_append ends (by decide)]

/-! ## Behind what is left open -/

/-- A character that ends no quote, no comment and no line. -/
def endsNothing (c : Char) : Bool :=
  c != '\'' && c != '"' && c != '/' && !isLineEnd c

/-- A lexeme that is left open, or a line comment, takes in what follows if nothing there ends it.
-/
theorem next_append_of_unfinished (cut : next c cs = (l, []))
    (unfinished : l.token.isOpen = true ∨ l.token = .lineComment)
    (harmless : ∀ d ∈ u, endsNothing d = true) :
    next c (cs ++ u) = (⟨l.token, l.text ++ u⟩, []) := by
  have absent {d : Char} (ending : endsNothing d = false) : d ∉ u := by
    intro mem
    rw [harmless d mem] at ending
    cases ending
  cases next_eq_iff.mp cut with
  | string quote taken =>
      obtain rfl := by simpa [Token.isOpen] using unfinished
      exact Cut.next_eq (.string quote (quotedRun_append_of_open taken (absent (by decide))))
  | quotedName quote taken =>
      obtain rfl := by simpa [Token.isOpen] using unfinished
      exact Cut.next_eq (.quotedName quote (quotedRun_append_of_open taken (absent (by decide))))
  | @lineComment tail hyphens _ left =>
      obtain ⟨rfl, rfl⟩ := hyphens
      have before : ∀ d ∈ tail, (!isLineEnd d) = true := List.dropWhile_eq_nil_iff.mp left
      have inside : ∀ d ∈ tail ++ u, (!isLineEnd d) = true := by
        refine List.forall_mem_append.mpr ⟨before, fun d mem => ?_⟩
        have shown := harmless d mem
        simp only [endsNothing, Bool.and_eq_true] at shown
        exact shown.2
      have done := List.dropWhile_eq_nil_iff.mpr inside
      rw [List.cons_append, next_lineComment (opensLineComment_of_end done), done,
        List.takeWhile_eq_self_iff.mpr inside, List.takeWhile_eq_self_iff.mpr before]
      rfl
  | blockComment opening taken =>
      obtain rfl := by simpa [Token.isOpen] using unfinished
      have later := blockRun_append_of_open taken (absent (by decide))
      exact Cut.next_eq (.blockComment ⟨opening.1, by rw [opening.2]; rfl⟩ later)
  | blank | word => simp [Token.isOpen] at unfinished
  | symbol =>
      rcases symbolToken_cases c with same | same | same | same | same <;>
        simp [same, Token.isOpen] at unfinished

/-- What follows a text that does not end in code is swallowed if nothing in it ends anything. -/
theorem tokens_append_of_not_endsInCode (unfinished : ¬ EndsInCode a)
    (harmless : ∀ d ∈ u, endsNothing d = true) : tokens (a ++ ' ' :: u) = tokens a := by
  obtain ⟨l, last, goesOn⟩ := exists_last_of_not_endsInCode unfinished
  obtain ⟨ls, c, cs, cut, whole, behind⟩ := exists_last (d := ' ') last (by decide)
  have taken := next_append_of_unfinished (u := ' ' :: u) cut goesOn
    (List.forall_mem_cons.mpr ⟨by decide, harmless⟩)
  have single : all (c :: (cs ++ ' ' :: u)) = [⟨l.token, l.text ++ ' ' :: u⟩] := by
    rw [all, taken, all]
  simp [tokens, whole, behind, single]

/-- A text ends in code exactly if a space keeps it apart from whatever follows. -/
theorem endsInCode_iff : EndsInCode a ↔ ∀ b, tokens (a ++ ' ' :: b) = tokens a ++ tokens b := by
  refine ⟨EndsInCode.tokens_append, fun apart => ?_⟩
  by_contra unfinished
  have swallowed := tokens_append_of_not_endsInCode (u := ['x']) unfinished
    (List.forall_mem_singleton.mpr (by decide))
  have word : tokens ['x'] = [.word "x"] := by decide +kernel
  rw [apart, word] at swallowed
  simp at swallowed

/-- Two texts that end in code do so with a space between them. -/
theorem EndsInCode.append (first : EndsInCode a) (second : EndsInCode b) :
    EndsInCode (a ++ ' ' :: b) := by
  rw [endsInCode_iff]
  intro r
  calc tokens ((a ++ ' ' :: b) ++ ' ' :: r)
    _ = tokens (a ++ ' ' :: (b ++ ' ' :: r)) := by rw [List.append_assoc, List.cons_append]
    _ = tokens a ++ (tokens b ++ tokens r) := by rw [first.tokens_append, second.tokens_append]
    _ = tokens (a ++ ' ' :: b) ++ tokens r := by rw [first.tokens_append, List.append_assoc]

end Lexeme

/--
Behind a text whose quotes and block comments are closed, and whose last token is no line comment,
a space starts afresh: what follows has the tokens that it has on its own.
-/
theorem tokens_space_append {a : String} (closed : ∀ t ∈ tokens a.toList, t.isOpen = false)
    (uncommented : (tokens a.toList).getLast? ≠ some .lineComment) (b : String) :
    tokens (a ++ " " ++ b).toList = tokens a.toList ++ tokens b.toList := by
  have chars : (a ++ " " ++ b).toList = a.toList ++ ' ' :: b.toList := by simp
  rw [chars]
  exact (Lexeme.endsInCode_of_tokens closed uncommented).tokens_append b.toList

/-- A space between two hyphens keeps them from starting a comment. -/
theorem tokens_space_append_hyphens :
    (∀ t ∈ tokens "SELECT 'O''Hara', /* ' */ 7 -".toList, t.isOpen = false) ∧
      (tokens "SELECT 'O''Hara', /* ' */ 7 -".toList).getLast? ≠ some .lineComment ∧
      tokens ("SELECT 'O''Hara', /* ' */ 7 -" ++ " " ++ "- 'open").toList =
        tokens "SELECT 'O''Hara', /* ' */ 7 -".toList ++ tokens "- 'open".toList := by
  have closed : ∀ t ∈ tokens "SELECT 'O''Hara', /* ' */ 7 -".toList, t.isOpen = false := by
    decide +kernel
  have uncommented :
      (tokens "SELECT 'O''Hara', /* ' */ 7 -".toList).getLast? ≠ some .lineComment := by
    decide +kernel
  exact ⟨closed, uncommented, tokens_space_append closed uncommented "- 'open"⟩

end RuleQuery.Sql
