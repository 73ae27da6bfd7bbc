/-
# The tokens of names and numbers

Plain text, which takes no part in quoting and in comments, is cut up on its own in front of any
other text, unless a word runs across the border. So the tokens of a rendered clause are those of
its pieces one after another: those of a dotted name are the words between its points and the points
themselves, an integer is one word behind at most one sign, and a string literal is a single token.
-/

import Mathlib.Data.List.TakeWhile
import RuleQuery.Proofs.Injection.Fragment
import RuleQuery.Proofs.Lexeme.Cutting

namespace RuleQuery.Sql

variable {a b : List Char}

/-- The text does not start inside a word. -/
def HeadOutside (a : List Char) : Prop := ∀ c ∈ a.head?, isWordChar c = false

/-- The text does not end inside a word. -/
def LastOutside (a : List Char) : Prop := ∀ c ∈ a.getLast?, isWordChar c = false

instance (a : List Char) : Decidable (HeadOutside a) :=
  decidable_of_iff (a.head?.all (!isWordChar ·) = true) (by simp [HeadOutside, Option.all_eq_true])

instance (a : List Char) : Decidable (LastOutside a) :=
  decidable_of_iff (a.getLast?.all (!isWordChar ·) = true)
    (by simp [LastOutside, Option.all_eq_true])

/-- No word runs from one text into the next. -/
def Apart (a b : List Char) : Prop := LastOutside a ∨ HeadOutside b

theorem Apart.of_append {a' : List Char} (apart : Apart (a ++ a') b) : Apart a' b := by
  refine apart.imp_left fun last c mem => last c ?_
  rw [List.getLast?_append, Option.mem_def.mp mem]
  rfl

theorem apart_cons {c : Char} (stop : isWordChar c = false) : Apart a (c :: b) :=
  .inr (by simpa [HeadOutside] using stop)

/-- What may follow a fragment does not continue a word. -/
theorem apart_of_closes (closes : Closes b) : Apart a b := by
  refine .inr fun c mem => ?_
  rw [Closes, Option.mem_def.mp mem, Option.all_some] at closes
  simp only [isCloser, Bool.or_eq_true, beq_iff_eq] at closes
  rcases closes with ((rfl | rfl) | rfl) | rfl <;> decide

@[simp] theorem tokens_nil : tokens [] = [] := by
  rw [tokens, Lexeme.all]
  rfl

/-- A plain character that is no blank and of no word is a token of its own, whatever follows. -/
theorem tokens_plain {c : Char}
    (single : isPlain c = true ∧ isSqlBlank c = false ∧ isWordChar c = false) (cs : List Char) :
    tokens (c :: cs) = symbolToken c :: tokens cs :=
  tokens_symbol (by simp [single]) (by simp [single]) (unquoted_of_isPlain single.1)
    (not_opensComment_of_isPlain single.1 cs)

/-- The word in front of a text stays the same, and so does what is left, in front of another. -/
theorem word_append {c : Char} (word : isWordChar c = true) (apart : Apart (c :: a) b) :
    (a ++ b).takeWhile isWordChar = a.takeWhile isWordChar ∧
      (a ++ b).dropWhile isWordChar = a.dropWhile isWordChar ++ b := by
  cases stop : a.dropWhile isWordChar with
  | cons e tail => exact run_append_of_stop stop
  | nil =>
      cases b with
      | nil => simp [stop]
      | cons d b =>
          -- The word fills the text, so it is what follows that has to keep apart.
          have stopped : isWordChar d = false := by
            rcases apart with last | head
            · have all : ∀ e ∈ c :: a, isWordChar e = true :=
                List.forall_mem_cons.mpr ⟨word, List.dropWhile_eq_nil_iff.mp stop⟩
              have there := List.getLast?_eq_some_getLast (List.cons_ne_nil c a)
              have inside := all _ (List.mem_of_getLast? there)
              rw [last _ there] at inside
              cases inside
            · exact head d rfl
          exact run_append_of_end stop stopped

/-- Plain text is cut up on its own if no word runs into what follows. -/
theorem tokens_append {a b : List Char} (plain : Plain a) (apart : Apart a b) :
    tokens (a ++ b) = tokens a ++ tokens b := by
  match a with
  | [] => rw [List.nil_append, tokens_nil, List.nil_append]
  | c :: a =>
    have first : isPlain c = true := plain c (by simp)
    have rest : Plain a := fun d mem => plain d (by simp [mem])
    have unquoted := unquoted_of_isPlain first
    have noComment := not_opensComment_of_isPlain first
    have restApart : Apart a b := Apart.of_append (a := [c]) apart
    rw [List.cons_append]
    by_cases blank : isSqlBlank c = true
    · rw [tokens_blank blank, tokens_blank blank, tokens_append rest restApart]
    · by_cases word : isWordChar c = true
      · have whole := List.takeWhile_append_dropWhile (p := isWordChar) (l := a)
        have left : Plain (a.dropWhile isWordChar) := fun d mem =>
          rest d (whole ▸ List.mem_append_right _ mem)
        have leftApart : Apart (a.dropWhile isWordChar) b := (whole.symm ▸ restApart).of_append
        have shorter := (a.dropWhile_sublist isWordChar).length_le
        rw [tokens_word word unquoted, tokens_word word unquoted, (word_append word apart).1,
          (word_append word apart).2, tokens_append left leftApart, List.cons_append]
      · rw [tokens_symbol blank word unquoted (noComment _),
          tokens_symbol blank word unquoted (noComment _), tokens_append rest restApart,
          List.cons_append]
termination_by a.length

/-! ## Names -/

/-- The parts of a name belong to words. -/
theorem isWordChar_of_isPart {c : Char} (part : Name.isPart c = true) : isWordChar c = true := by
  rcases Bool.or_eq_true _ _ |>.mp part with alphanumeric | underscore
  · rcases Bool.or_eq_true _ _ |>.mp alphanumeric with letter | digit
    · have range := Name.isAlpha_iff_toNat.mp letter
      have alphabetic := Text.isAlphabetic_of_lt (c := c) (by omega)
      simp [isWordChar, Text.isAlphanumeric, alphabetic, letter]
    · have range := Char.isDigit_iff_toNat.mp digit
      have ascii : c.toNat < 128 := Nat.lt_of_le_of_lt range.2 (by decide)
      simp [isWordChar, Text.isAlphanumeric, Text.isNumeric, ascii, digit]
  · rw [beq_iff_eq.mp underscore]
    decide

/-- A text of parts is a single word. -/
theorem tokens_of_isPart {cs : List Char} (nonempty : cs ≠ [])
    (parts : ∀ c ∈ cs, Name.isPart c = true) : tokens cs = [.word (String.ofList cs)] := by
  obtain ⟨c, cs, rfl⟩ := List.exists_cons_of_ne_nil nonempty
  have word : ∀ d ∈ c :: cs, isWordChar d = true := fun d mem => isWordChar_of_isPart (parts d mem)
  have unquoted := unquoted_of_isPlain (isPlain_of_isFixed (isFixed_of_isPart (parts c (by simp))))
  have all : ∀ d ∈ cs, isWordChar d = true := fun d mem => word d (by simp [mem])
  rw [tokens_word (word c (by simp)) unquoted, List.takeWhile_eq_self_iff.mpr all,
    List.dropWhile_eq_nil_iff.mpr all, tokens_nil]

theorem plain_of_isPart {cs : List Char} (parts : ∀ c ∈ cs, Name.isPart c = true) : Plain cs :=
  fun c mem => isPlain_of_isFixed (isFixed_of_isPart (parts c mem))

/-- An identifier is a single word. -/
theorem tokens_of_isIdentifier {s : String} (identifier : Name.isIdentifier s = true) :
    tokens s.toList = [.word s] := by
  have nonempty : s.toList ≠ [] := by
    intro empty
    simp [Name.isIdentifier, empty, Name.isIdentifierChars] at identifier
  rw [tokens_of_isPart nonempty (Name.isPart_of_mem identifier), String.ofList_toList]

/-- The tokens of words with points between them. -/
theorem mem_tokens_intercalate {parts : List (List Char)}
    (words : ∀ part ∈ parts, ∀ c ∈ part, Name.isPart c = true) {t : Token}
    (mem : t ∈ tokens (['.'].intercalate parts)) :
    t = .symbol '.' ∨ ∃ part ∈ parts, part ≠ [] ∧ t = .word (String.ofList part) := by
  have single {part : List Char} (word : ∀ c ∈ part, Name.isPart c = true)
      (mem : t ∈ tokens part) : part ≠ [] ∧ t = .word (String.ofList part) := by
    by_cases empty : part = []
    · simp [empty] at mem
    · rw [tokens_of_isPart empty word, List.mem_singleton] at mem
      exact ⟨empty, mem⟩
  match parts with
  | [] => simp at mem
  | [part] =>
    rw [List.intercalate_singleton] at mem
    exact .inr ⟨part, by simp, single (words part (by simp)) mem⟩
  | part :: next :: rest =>
    have point : Apart part ('.' :: ['.'].intercalate (next :: rest)) := apart_cons (by decide)
    have dot (cs : List Char) : tokens ('.' :: cs) = .symbol '.' :: tokens cs :=
      tokens_plain (by decide) cs
    rw [List.intercalate_cons_cons, List.append_assoc, List.singleton_append,
      tokens_append (plain_of_isPart (words part (by simp))) point, dot] at mem
    rcases List.mem_append.mp mem with here | later
    · exact .inr ⟨part, by simp, single (words part (by simp)) here⟩
    · rcases List.mem_cons.mp later with rfl | later
      · exact .inl rfl
      · refine (mem_tokens_intercalate (fun p h => words p (by simp [h])) later).imp_right ?_
        rintro ⟨p, h, word⟩
        exact ⟨p, by simp [h], word⟩

/-- What is split at a character holds all characters but that one. -/
theorem mem_of_mem_splitOn {cs part : List Char} {d : Char} (split : part ∈ cs.splitOn d) :
    ∀ c ∈ part, c ∈ cs ∧ c ≠ d := by
  induction cs generalizing part with
  | nil =>
      rw [List.splitOn_nil, List.mem_singleton] at split
      simp [split]
  | cons e cs ih =>
      have wider {part : List Char} (h : ∀ c ∈ part, c ∈ cs ∧ c ≠ d) :
          ∀ c ∈ part, c ∈ e :: cs ∧ c ≠ d := fun c mem => ⟨by simp [h c mem], (h c mem).2⟩
      rw [List.splitOn_cons_eq_if_modifyHead] at split
      split at split
      · rcases List.mem_cons.mp split with rfl | later
        · simp
        · exact wider (ih later)
      next other =>
        obtain ⟨first, rest, parts⟩ := List.exists_cons_of_ne_nil (List.splitOn_ne_nil d cs)
        rw [parts, List.modifyHead_cons] at split
        rcases List.mem_cons.mp split with rfl | later
        · have inside := wider (ih (show first ∈ cs.splitOn d by simp [parts]))
          exact List.forall_mem_cons.mpr ⟨⟨by simp, by simpa using other⟩, inside⟩
        · exact wider (ih (by simp [parts, later]))

/-- The tokens of a dotted name are its parts and its points. -/
theorem mem_tokens_of_dotted {cs : List Char} (dotted : ∀ c ∈ cs, Name.isDottedPart c = true)
    {t : Token} (mem : t ∈ tokens cs) :
    t = .symbol '.' ∨ ∃ part ∈ cs.splitOn '.', part ≠ [] ∧ t = .word (String.ofList part) := by
  apply mem_tokens_intercalate ?_ (by rwa [List.intercalate_splitOn])
  intro part split c inside
  obtain ⟨mem, other⟩ := mem_of_mem_splitOn split c inside
  have known := dotted c mem
  simpa [Name.isDottedPart, other] using known

end RuleQuery.Sql
