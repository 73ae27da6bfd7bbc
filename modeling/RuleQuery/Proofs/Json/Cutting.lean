/-
# A written document is cut into its tokens

The writer lays a document out over lines. To the reader the line breaks and the indentation are
blanks between tokens, so what it sees is the sequence of the tokens of the document, and that does
not depend on the layout. `Json.tokens` is this sequence, and `Token.Cuts` says how a text is cut
without a bound on the number of steps.

A token is read in front of any text that comes later, with one condition: a number goes on as long
as it can, so what follows a document must not continue a number. The writer puts a comma or a line
break there, or nothing at all.
-/

import RuleQuery.Json.Token
import RuleQuery.Json.Writer
import RuleQuery.Proofs.Document.Calendar

namespace RuleQuery.Json

open RuleQuery.Number

/-! ## The tokens of a document -/

mutual

/-- The tokens of a document, in the order in which they are written. -/
def tokens : Json → List Token
  | .null => [.null]
  | .bool b => [.bool b]
  | .int n => [.int n]
  | .float x => [.float x]
  | .string s => [.string s]
  | .array vs => .openArray :: itemTokens vs ++ [.closeArray]
  | .object es => .openObject :: entryTokens es ++ [.closeObject]

/-- The tokens of the items of an array, with a comma between neighbours. -/
def itemTokens : List Json → List Token
  | [] => []
  | [v] => v.tokens
  | v :: vs => v.tokens ++ .comma :: itemTokens vs

/-- The tokens of the entries of an object, with a comma between neighbours. -/
def entryTokens : List (String × Json) → List Token
  | [] => []
  | [(key, v)] => .string key :: .colon :: v.tokens
  | (key, v) :: es => .string key :: .colon :: v.tokens ++ .comma :: entryTokens es

end

namespace Token

/-! ## Cutting a text -/

/-- A text is cut into tokens: blanks are passed over, and each token takes at least a character. -/
inductive Cuts : List Char → List Token → Prop
  | nil : Cuts [] []
  | blank {c : Char} {cs : List Char} {ts : List Token} (blank : isBlank c = true)
      (later : Cuts cs ts) : Cuts (c :: cs) ts
  | token {c : Char} {cs rest : List Char} {t : Token} {ts : List Token}
      (shown : isBlank c = false) (first : next? (c :: cs) = some (t, rest))
      (shorter : rest.length ≤ cs.length) (later : Cuts rest ts) : Cuts (c :: cs) (t :: ts)

variable {cs rest : List Char} {ts : List Token}

/-- A bound beyond the length of the text is never reached. -/
theorem Cuts.allOf? (cut : Cuts cs ts) {fuel : Nat} (enough : cs.length < fuel) :
    allOf? fuel cs = some ts := by
  induction cut generalizing fuel with
  | nil =>
      obtain ⟨k, rfl⟩ := Nat.exists_eq_add_of_lt enough
      rfl
  | @blank c cs ts blank _ ih =>
      have same : Token.allOf? fuel cs = some ts := ih (Nat.lt_of_succ_lt enough)
      obtain ⟨k, rfl⟩ := Nat.exists_eq_add_of_lt enough
      rwa [Token.allOf?, List.dropWhile_cons_of_pos blank, ← Token.allOf?]
  | @token c cs rest t ts shown first shorter _ ih =>
      rw [List.length_cons] at enough
      obtain ⟨k, rfl⟩ := Nat.exists_eq_add_of_lt enough
      have others : Token.allOf? (cs.length + 1 + k) rest = some ts := ih (by omega)
      rw [Token.allOf?, List.dropWhile_cons_of_neg (by simp [shown])]
      simp [first, others]

/-- A text that is cut into tokens is read as these tokens. -/
theorem Cuts.read? (cut : Cuts cs ts) : Token.read? cs = some ts :=
  cut.allOf? (Nat.lt_succ_self cs.length)

theorem Cuts.blanks {bs : List Char} (blank : ∀ c ∈ bs, isBlank c = true) (later : Cuts cs ts) :
    Cuts (bs ++ cs) ts := by
  induction bs with
  | nil => exact later
  | cons c bs ih =>
      obtain ⟨first, others⟩ := List.forall_mem_cons.mp blank
      exact .blank first (ih others)

/-! ## Numbers -/

/-- A text that does not go on with what could belong to a number. -/
def EndsNumber (cs : List Char) : Prop :=
  ∀ c ∈ cs.head?, c.isDigit = false ∧ c ≠ '.' ∧ c ≠ 'e' ∧ c ≠ 'E'

theorem EndsNumber.nil : EndsNumber [] := nofun

theorem EndsNumber.cons {c : Char} (other : c.isDigit = false ∧ c ≠ '.' ∧ c ≠ 'e' ∧ c ≠ 'E')
    (cs : List Char) : EndsNumber (c :: cs) := by
  intro d head
  rwa [← Option.some.inj head]

/-- Only zero is written with a zero in front. -/
theorem head?_digits_ne {n : Nat} (positive : n ≠ 0) : (digits n).head? ≠ some '0' := by
  induction n using Nat.strongRecOn with
  | ind n ih =>
      unfold digits
      by_cases single : n < 10
      · have shown : ∀ m < 10, m ≠ 0 → m.digitChar ≠ '0' := by decide
        rw [Nat.toDigits_of_lt_base single, List.head?_cons, ne_eq, Option.some.injEq]
        exact shown n single positive
      · have shorter : (digits (n / 10)).head? ≠ some '0' := ih (n / 10) (by omega) (by omega)
        obtain ⟨d, ds, chars⟩ := List.exists_cons_of_ne_nil (digits_ne_nil (n / 10))
        rw [chars] at shorter
        rw [Nat.toDigits_of_base_le (by decide) (by omega), ← digits, chars]
        exact shorter

theorem spanDigits_digits (n : Nat) {rest : List Char} (stop : EndsNumber rest) :
    spanDigits (digits n ++ rest) = (digits n, rest) := by
  have run : ∀ c ∈ digits n, c.isDigit = true := fun c mem => isDigit_of_mem_digits mem
  have behind : rest.takeWhile Char.isDigit = [] ∧ rest.dropWhile Char.isDigit = rest := by
    cases rest with
    | nil => exact ⟨rfl, rfl⟩
    | cons c cs => simp [(stop c rfl).1]
  rw [spanDigits, List.takeWhile_append_of_pos run, List.dropWhile_append_of_pos run, behind.1,
    behind.2, List.append_nil]

/-- The whole part of a number is its digits: there is no zero in front that could end it early. -/
theorem wholePart?_digits (n : Nat) {rest : List Char} (stop : EndsNumber rest) :
    wholePart? (digits n ++ rest) = some (digits n, rest) := by
  by_cases zero : n = 0
  · rw [zero]
    rfl
  · have run := spanDigits_digits n stop
    obtain ⟨d, ds, chars⟩ := List.exists_cons_of_ne_nil (digits_ne_nil n)
    have first := head?_digits_ne zero
    rw [chars] at first run ⊢
    unfold wholePart?
    split
    next other => simp_all
    next => simp only [run, List.isEmpty_cons, Bool.false_eq_true, if_false]

theorem EndsNumber.fraction? {rest : List Char} (stop : EndsNumber rest) :
    fraction? rest = some (none, rest) := by
  unfold Token.fraction?
  split
  next => exact absurd rfl (stop '.' rfl).2.1
  next => rfl

theorem EndsNumber.exponent? {rest : List Char} (stop : EndsNumber rest) :
    exponent? rest = some (none, rest) := by
  cases rest with
  | nil => rfl
  | cons c cs =>
      obtain ⟨_, _, lower, upper⟩ := stop c rfl
      simp [Token.exponent?, lower, upper]

/-- The integers that have a token: those of 64 bits, signed or unsigned. -/
def FitsInteger (n : Int) : Prop := isInt64 n = true ∨ isNat64 n = true

/-- The token of an integer that is written with its sign and its digits. -/
theorem ofNumber?_digits {n : Int} (fits : FitsInteger n) :
    ofNumber? (decide (n < 0)) (digits n.natAbs) none none = some (.int n) := by
  rw [FitsInteger, isInt64_iff, isNat64_iff] at fits
  unfold ofNumber?
  simp only [value_digits, decide_eq_true_eq]
  by_cases negative : n < 0
  · have whole : -(n.natAbs : Int) = n := by omega
    have range : isInt64 n = true := isInt64_iff.mpr (by omega)
    rw [if_pos negative, if_neg (by omega), whole, if_pos range]
  · have whole : (n.natAbs : Int) = n := by omega
    have range : isNat64 n = true := isNat64_iff.mpr (by omega)
    rw [if_neg negative, whole, if_pos range]

theorem number?_integerText {n : Int} (fits : FitsInteger n) {rest : List Char}
    (stop : EndsNumber rest) :
    number? ((integerText n).toList ++ rest) = some (.int n, rest) := by
  have token := ofNumber?_digits fits
  have whole := wholePart?_digits n.natAbs stop
  rw [integerText, String.toList_ofList]
  unfold number?
  by_cases negative : n < 0
  · rw [decide_eq_true negative] at token
    simp [negative, whole, stop.fraction?, stop.exponent?, token]
  · obtain ⟨d, ds, chars⟩ := List.exists_cons_of_ne_nil (digits_ne_nil n.natAbs)
    have digit : d.isDigit = true := isDigit_of_mem_digits (chars ▸ List.mem_cons_self)
    have unsigned : d ≠ '-' := by
      rintro rfl
      cases digit
    rw [decide_eq_false negative] at token
    rw [chars] at whole token ⊢
    simp only [if_neg negative, List.nil_append, List.cons_append] at whole ⊢
    split
    · simp_all
    · simp_all [stop.fraction?, stop.exponent?]

/-- What starts with a digit or a minus sign is a number. -/
theorem next?_of_number {c : Char} (start : c = '-' ∨ c.isDigit = true) (cs : List Char) :
    next? (c :: cs) = number? (c :: cs) := by
  have unlike (d : Char) (other : d ≠ '-' ∧ d.isDigit = false) : c ≠ d := by
    rintro rfl
    rcases start with minus | digit
    · exact other.1 minus
    · exact absurd digit (by simp [other.2])
  unfold next?
  split <;> first
    | rfl
    | next same => exact absurd (List.cons.inj same).1 (unlike _ (by decide))

/-- The text of an integer starts with its sign or with a digit. -/
theorem exists_cons_integerText (n : Int) :
    ∃ c cs, (integerText n).toList = c :: cs ∧ (c = '-' ∨ c.isDigit = true) := by
  rw [integerText, String.toList_ofList]
  by_cases negative : n < 0
  · exact ⟨'-', digits n.natAbs, by simp [negative], .inl rfl⟩
  · obtain ⟨d, ds, chars⟩ := List.exists_cons_of_ne_nil (digits_ne_nil n.natAbs)
    refine ⟨d, ds, by simp [negative, chars], .inr ?_⟩
    exact isDigit_of_mem_digits (chars ▸ List.mem_cons_self)

theorem isBlank_of_number {c : Char} (start : c = '-' ∨ c.isDigit = true) : isBlank c = false := by
  rcases start with rfl | digit
  · rfl
  · simp only [isBlank, Bool.or_eq_false_iff, beq_eq_false_iff_ne]
    refine ⟨⟨⟨?_, ?_⟩, ?_⟩, ?_⟩ <;> rintro rfl <;> cases digit

/-- An integer is cut off in front of what does not continue it. -/
theorem Cuts.integer {n : Int} (fits : FitsInteger n) (stop : EndsNumber cs)
    (later : Cuts cs ts) : Cuts ((integerText n).toList ++ cs) (.int n :: ts) := by
  obtain ⟨c, more, chars, start⟩ := exists_cons_integerText n
  have first := number?_integerText fits stop
  rw [chars, List.cons_append] at first ⊢
  rw [← next?_of_number start] at first
  refine .token (isBlank_of_number start) first ?_ later
  simp

/-! ## Strings -/

theorem digit?_hexDigit : ∀ n < 16, hex4?.digit? (hexDigit n) = some n := by
  decide

/-- An escape by number gives the character back, if it is one of those that are written so. -/
theorem escape?_hexDigits {c : Char} (control : c.toNat < 0x20) (rest : List Char) :
    escape? ('u' :: '0' :: '0' :: hexDigit (c.toNat / 16) :: hexDigit (c.toNat % 16) :: rest) =
      some (c, rest) := by
  have zero : hex4?.digit? '0' = some 0 := by decide
  have high := digit?_hexDigit (c.toNat / 16) (by omega)
  have low := digit?_hexDigit (c.toNat % 16) (by omega)
  have read : hex4? ('0' :: '0' :: hexDigit (c.toNat / 16) :: hexDigit (c.toNat % 16) :: rest) =
      some (c.toNat, rest) := by
    rw [hex4?, zero, high, low]
    simp [Nat.div_add_mod']
  simp only [escape?, unicodeEscape?, read, Option.bind_eq_bind, Option.bind_some, Bool.and_eq_true,
    decide_eq_true_eq]
  rw [if_neg (by omega), if_neg (by omega), Char.ofNat_toNat]
  rfl

/-- A string goes on behind an escaped character. -/
theorem stringBody?_of_escape {cs rest : List Char} {c : Char} (read : escape? cs = some (c, rest))
    (fuel : Nat) : stringBody? (fuel + 1) ('\\' :: cs) =
      (stringBody? fuel rest).map fun (ds, rest) => (c :: ds, rest) := by
  rw [stringBody?, if_neg (by decide), if_pos rfl, read]
  simp only [Option.bind_eq_bind, Option.bind_some]
  cases stringBody? fuel rest <;> rfl

/-- A string goes on behind a character that needs no escape. -/
theorem stringBody?_of_shown {c : Char} (notQuote : c ≠ '"') (notEscape : c ≠ '\\')
    (shown : ¬ c.toNat < 0x20) (fuel : Nat) (rest : List Char) :
    stringBody? (fuel + 1) (c :: rest) =
      (stringBody? fuel rest).map fun (ds, rest) => (c :: ds, rest) := by
  rw [stringBody?, if_neg notQuote, if_neg notEscape, if_neg shown]
  cases stringBody? fuel rest <;> rfl

/-- A character is written as it is, or as an escape that gives it back. -/
theorem escapeChar_cases (c : Char) :
    (escapeChar c = [c] ∧ c ≠ '"' ∧ c ≠ '\\' ∧ ¬ c.toNat < 0x20) ∨
      ∃ cs, escapeChar c = '\\' :: cs ∧ ∀ rest, escape? (cs ++ rest) = some (c, rest) := by
  unfold escapeChar
  split
  case h_8 notQuote notEscape _ _ _ _ _ =>
    split
    next control => exact .inr ⟨_, rfl, fun rest => escape?_hexDigits control rest⟩
    next shown => exact .inl ⟨rfl, notQuote, notEscape, shown⟩
  all_goals exact .inr ⟨_, rfl, fun _ => rfl⟩

/-- One character of a string is read back, whether it was escaped or not. -/
theorem stringBody?_escapeChar (c : Char) (fuel : Nat) (rest : List Char) :
    stringBody? (fuel + 1) (escapeChar c ++ rest) =
      (stringBody? fuel rest).map fun (ds, rest) => (c :: ds, rest) := by
  rcases escapeChar_cases c with ⟨written, notQuote, notEscape, shown⟩ | ⟨cs, written, read⟩
  · rw [written]
    exact stringBody?_of_shown notQuote notEscape shown fuel rest
  · rw [written]
    exact stringBody?_of_escape (read rest) fuel

/-- The characters of a string are read back up to its closing quote. -/
theorem stringBody?_escaped (s : List Char) {fuel : Nat} (enough : s.length < fuel)
    (rest : List Char) :
    stringBody? fuel (s.flatMap escapeChar ++ '"' :: rest) = some (s, rest) := by
  induction s generalizing fuel with
  | nil =>
      obtain ⟨k, rfl⟩ := Nat.exists_eq_add_of_lt enough
      simp [stringBody?]
  | cons c s ih =>
      rw [List.length_cons] at enough
      obtain ⟨k, rfl⟩ := Nat.exists_eq_add_of_lt enough
      rw [List.flatMap_cons, List.append_assoc, stringBody?_escapeChar, ih (by omega)]
      rfl

/-- Every character is written with at least one. -/
theorem length_le_escaped (s : List Char) : s.length ≤ (s.flatMap escapeChar).length := by
  induction s with
  | nil => exact Nat.le_refl 0
  | cons c s ih =>
      have written : 1 ≤ (escapeChar c).length := by
        rcases escapeChar_cases c with ⟨written, _⟩ | ⟨cs, written, _⟩ <;> simp [written]
      rw [List.flatMap_cons, List.length_append, List.length_cons]
      omega

/-- A string is cut off with its quotes. -/
theorem Cuts.string (s : String) (later : Cuts cs ts) :
    Cuts (stringText s ++ cs) (.string s :: ts) := by
  have enough := length_le_escaped s.toList
  have body : stringBody? ((s.toList.flatMap escapeChar ++ '"' :: cs).length + 1)
      (s.toList.flatMap escapeChar ++ '"' :: cs) = some (s.toList, cs) :=
    stringBody?_escaped s.toList (by rw [List.length_append]; omega) cs
  have chars : stringText s ++ cs = '"' :: (s.toList.flatMap escapeChar ++ '"' :: cs) := by
    simp [stringText]
  have first : next? (stringText s ++ cs) = some (.string s, cs) := by
    rw [chars, next?, body]
    simp only [Option.map_some, String.ofList_toList]
  rw [chars] at first ⊢
  refine .token rfl first ?_ later
  simp only [List.length_append, List.length_cons]
  omega

/-- A token of a single character. -/
theorem Cuts.mark (c : Char) {t : Token} (shown : isBlank c = false)
    (first : next? (c :: cs) = some (t, cs)) (later : Cuts cs ts) : Cuts (c :: cs) (t :: ts) :=
  .token shown first (Nat.le_refl cs.length) later

/-- The key of an entry, with what stands between it and its value. -/
theorem Cuts.key (key : String) (later : Cuts cs ts) :
    Cuts (stringText key ++ ':' :: ' ' :: cs) (.string key :: .colon :: ts) :=
  .string key (.mark ':' rfl rfl (.blank rfl later))

/-- The line break and the indentation in front of an item are passed over. -/
theorem Cuts.newLine (level : Nat) (later : Cuts cs ts) : Cuts (newLine level ++ cs) ts := by
  apply Cuts.blanks ?_ later
  intro c mem
  rcases List.mem_cons.mp mem with rfl | space
  · rfl
  · rw [List.eq_of_mem_replicate space]
    rfl

theorem EndsNumber.newLine (level : Nat) (cs : List Char) :
    EndsNumber (Json.newLine level ++ cs) :=
  .cons (by decide) _

end Token

/-! ## Documents -/

/--
A document that can be found again in its text: its numbers are integers that have a token, and the
entries of its objects are in order.
-/
inductive Regular : Json → Prop
  | null : Regular .null
  | bool (b : Bool) : Regular (.bool b)
  | int {n : Int} (fits : Token.FitsInteger n) : Regular (.int n)
  | string (s : String) : Regular (.string s)
  | array {items : List Json} (each : ∀ v ∈ items, Regular v) : Regular (.array items)
  | object {entries : List (String × Json)} (increasing : Increasing entries)
      (each : ∀ e ∈ entries, Regular e.2) : Regular (.object entries)

namespace Regular

theorem items {vs : List Json} (regular : Regular (.array vs)) : ∀ v ∈ vs, v.Regular := by
  cases regular with
  | array each => exact each

theorem entries {es : List (String × Json)} (regular : Regular (.object es)) :
    Increasing es ∧ ∀ e ∈ es, e.2.Regular := by
  cases regular with
  | object increasing each => exact ⟨increasing, each⟩

end Regular

section Written

open Token (Cuts EndsNumber)

mutual

/-- The text of a document is cut into its tokens, at every level of indentation. -/
theorem cuts_prettyText {cs : List Char} {ts : List Token} : (v : Json) → v.Regular →
    (level : Nat) → EndsNumber cs → Cuts cs ts → Cuts (prettyText level v ++ cs) (v.tokens ++ ts)
  | .null, _, _, _, later => .token rfl rfl (Nat.le_add_right cs.length 3) later
  | .bool true, _, _, _, later => .token rfl rfl (Nat.le_add_right cs.length 3) later
  | .bool false, _, _, _, later => .token rfl rfl (Nat.le_add_right cs.length 4) later
  | .int n, regular, level, stop, later => by
      cases regular with
      | int fits => exact Cuts.integer fits stop later
  | .float x, regular, _, _, _ => by cases regular
  | .string s, _, level, _, later => by
      rw [prettyText]
      · exact Cuts.string s later
      all_goals simp
  | .array [], _, _, _, later => .mark '[' rfl rfl (.mark ']' rfl rfl later)
  | .array (v :: vs), regular, level, _, later => by
      have close : Cuts (newLine level ++ ']' :: cs) (.closeArray :: ts) :=
        (Cuts.mark ']' rfl rfl later).newLine level
      have items := cuts_prettyItems (v :: vs) regular.items (level + 1)
        (EndsNumber.newLine level (']' :: cs)) close
      rw [prettyText, tokens]
      simpa using Cuts.mark '[' rfl rfl items
  | .object [], _, _, _, later => .mark '\x7b' rfl rfl (.mark '\x7d' rfl rfl later)
  | .object (e :: es), regular, level, _, later => by
      have close : Cuts (newLine level ++ '\x7d' :: cs) (.closeObject :: ts) :=
        (Cuts.mark '\x7d' rfl rfl later).newLine level
      have entries := cuts_prettyEntries (e :: es) regular.entries.2 (level + 1)
        (EndsNumber.newLine level ('\x7d' :: cs)) close
      rw [prettyText, tokens]
      simpa using Cuts.mark '\x7b' rfl rfl entries

theorem cuts_prettyItems {cs : List Char} {ts : List Token} : (vs : List Json) →
    (∀ v ∈ vs, v.Regular) → (level : Nat) → EndsNumber cs → Cuts cs ts →
    Cuts (prettyItems level vs ++ cs) (itemTokens vs ++ ts)
  | [], _, _, _, later => later
  | [v], each, level, stop, later => by
      rw [prettyItems, itemTokens, List.append_assoc]
      exact (cuts_prettyText v (each v (by simp)) level stop later).newLine level
  | v :: w :: vs, each, level, stop, later => by
      obtain ⟨first, others⟩ := List.forall_mem_cons.mp each
      have rest : Cuts (',' :: (prettyItems level (w :: vs) ++ cs))
          (.comma :: (itemTokens (w :: vs) ++ ts)) :=
        .mark ',' rfl rfl (cuts_prettyItems (w :: vs) others level stop later)
      have all := cuts_prettyText v first level (.cons (by decide) _) rest
      rw [prettyItems, itemTokens]
      · simpa using all.newLine level
      all_goals simp

theorem cuts_prettyEntries {cs : List Char} {ts : List Token} : (es : List (String × Json)) →
    (∀ e ∈ es, e.2.Regular) → (level : Nat) → EndsNumber cs → Cuts cs ts →
    Cuts (prettyEntries level es ++ cs) (entryTokens es ++ ts)
  | [], _, _, _, later => later
  | [(key, v)], each, level, stop, later => by
      have value := cuts_prettyText v (each (key, v) (by simp)) level stop later
      rw [prettyEntries, entryTokens]
      simpa using (Cuts.key key value).newLine level
  | (key, v) :: e :: es, each, level, stop, later => by
      obtain ⟨first, others⟩ := List.forall_mem_cons.mp each
      have rest : Cuts (',' :: (prettyEntries level (e :: es) ++ cs))
          (.comma :: (entryTokens (e :: es) ++ ts)) :=
        .mark ',' rfl rfl (cuts_prettyEntries (e :: es) others level stop later)
      have value := cuts_prettyText v first level (.cons (by decide) _) rest
      rw [prettyEntries, entryTokens]
      · simpa using (Cuts.key key value).newLine level
      all_goals simp

end

/-- The tokens that are read from the text of a document are those of the document. -/
theorem read?_prettyText {v : Json} (regular : v.Regular) :
    Token.read? (prettyText 0 v) = some v.tokens := by
  have cut := cuts_prettyText v regular 0 EndsNumber.nil Cuts.nil
  rw [List.append_nil, List.append_nil] at cut
  exact cut.read?

end Written

end RuleQuery.Json
