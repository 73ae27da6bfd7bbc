/-
# Binding in two phases

What a compilation leaves open stands in the statement as a placeholder, so that it can be bound
later, in the text. A second phase reads the statement from left to right, keeps track of whether it
is inside a string literal, and outside of them puts values in the place of placeholders. The main
statement is that binding some parameters first and others in a second phase gives the statement
that binding all of them at once gives.

A bound string may hold anything, quotes and placeholders included, and the second phase has to
leave it alone. It does because a string literal doubles its quotes: whatever is in it, the scan is
outside again exactly when the literal ends. Nothing else in a statement opens a placeholder,
provided that the texts which are SQL as they stand do not. A brace at their end is harmless,
because of what follows them.
-/

import RuleQuery.Proofs.Injection.Weave
import RuleQuery.Proofs.NameMap
import RuleQuery.Proofs.Placeholders

namespace RuleQuery

open Sql (Environment Template)

/-! ## The second phase -/

namespace Sql

/-- What stands in front of the first two closing braces, and what follows them. -/
def cutName : List Char → Option (List Char × List Char)
  | [] => none
  | '\x7d' :: '\x7d' :: rest => some ([], rest)
  | c :: rest => (cutName rest).map fun cut => (c :: cut.1, cut.2)

/-- The value of the placeholder that a text starts with, and what follows the placeholder. -/
def replacement? (values : Bindings) : List Char → Option (Literal × List Char)
  | '\x7b' :: '\x7b' :: cs =>
    (cutName cs).bind fun cut => (values.find? (String.ofList cut.1)).map fun l => (l, cut.2)
  | _ => none

theorem length_cutName {cs : List Char} {cut : List Char × List Char}
    (found : cutName cs = some cut) : cut.2.length < cs.length := by
  induction cs using cutName.induct generalizing cut with
  | case1 => cases found
  | case2 rest =>
      cases found
      simp only [List.length_cons]
      omega
  | case3 c rest other ih =>
      rw [cutName] at found
      · obtain ⟨inner, later, rfl⟩ := Option.map_eq_some_iff.mp found
        have shorter := ih later
        simp only [List.length_cons]
        omega
      · exact other

/-- A placeholder is not empty. -/
theorem length_replacement? {values : Bindings} {cs : List Char} {l : Literal} {rest : List Char}
    (found : replacement? values cs = some (l, rest)) : rest.length < cs.length := by
  rw [replacement?.eq_def] at found
  split at found
  next inner =>
    obtain ⟨cut, cutting, value⟩ := Option.bind_eq_some_iff.mp found
    obtain ⟨_, _, same⟩ := Option.map_eq_some_iff.mp value
    cases same
    have shorter := length_cutName cutting
    simp only [List.length_cons]
    omega
  · cases found

/--
A text with the placeholders outside of string literals replaced by their values, as far as they
have one. A quote opens a literal or closes it, so that a doubled quote does both.
-/
def bindChars (values : Bindings) (quoted : Bool) : List Char → List Char
  | [] => []
  | c :: cs =>
    if c = '\'' then c :: bindChars values (!quoted) cs
    else if quoted then c :: bindChars values true cs
    else match _found : replacement? values (c :: cs) with
      | some (l, rest) => l.sql.toList ++ bindChars values false rest
      | none => c :: bindChars values false cs
termination_by cs => cs.length
decreasing_by
  · simp
  · simp
  · exact length_replacement? _found
  · simp

/-- The statement after the second phase. -/
def bindText (values : Bindings) (statement : String) : String :=
  String.ofList (bindChars values false statement.toList)

variable {values : Bindings}

theorem bindChars_nil (quoted : Bool) : bindChars values quoted [] = [] := by
  rw [bindChars]

theorem bindChars_quote (quoted : Bool) (cs : List Char) :
    bindChars values quoted ('\'' :: cs) = '\'' :: bindChars values (!quoted) cs := by
  rw [bindChars, if_pos rfl]

theorem bindChars_quoted {c : Char} (other : c ≠ '\'') (cs : List Char) :
    bindChars values true (c :: cs) = c :: bindChars values true cs := by
  rw [bindChars, if_neg other, if_pos rfl]

theorem bindChars_of_replacement {c : Char} {cs rest : List Char} {l : Literal} (other : c ≠ '\'')
    (found : replacement? values (c :: cs) = some (l, rest)) :
    bindChars values false (c :: cs) = l.sql.toList ++ bindChars values false rest := by
  rw [bindChars, if_neg other, if_neg Bool.false_ne_true]
  split
  next same =>
    rw [found] at same
    cases same
    rfl
  next same =>
    rw [found] at same
    cases same

theorem bindChars_of_none {c : Char} {cs : List Char} (other : c ≠ '\'')
    (none : replacement? values (c :: cs) = none) :
    bindChars values false (c :: cs) = c :: bindChars values false cs := by
  rw [bindChars, if_neg other, if_neg Bool.false_ne_true]
  split
  next same =>
    rw [none] at same
    cases same
  · rfl

theorem replacement?_eq_none {cs : List Char} (unopened : ¬ ['\x7b', '\x7b'] <+: cs) :
    replacement? values cs = none := by
  rw [replacement?.eq_def]
  split
  next rest => exact absurd (List.prefix_append ['\x7b', '\x7b'] rest) unopened
  · rfl

/-! ## What passes unchanged -/

/-- A text without quotes and openings passes, unless it ends in a brace and a brace follows. -/
theorem bindChars_append {s rest : List Char} (noQuote : '\'' ∉ s)
    (noOpening : ¬ ['\x7b', '\x7b'] <:+: s)
    (apart : s.getLast? = some '\x7b' → rest.head? ≠ some '\x7b') :
    bindChars values false (s ++ rest) = s ++ bindChars values false rest := by
  induction s with
  | nil => rfl
  | cons c s ih =>
      have other : c ≠ '\'' := by
        rintro rfl
        exact noQuote List.mem_cons_self
      have unopened : ¬ ['\x7b', '\x7b'] <+: c :: (s ++ rest) := by
        intro opening
        obtain ⟨rfl, next⟩ := List.cons_prefix_cons.mp opening
        cases s with
        | nil =>
            obtain ⟨after, split⟩ := next
            exact apart rfl (by rw [← List.nil_append rest, ← split]; rfl)
        | cons d s =>
            obtain ⟨rfl, _⟩ := List.cons_prefix_cons.mp next
            exact noOpening (List.prefix_append ['\x7b', '\x7b'] s).isInfix
      have tail : bindChars values false (s ++ rest) = s ++ bindChars values false rest := by
        apply ih
        · exact fun mem => noQuote (List.mem_cons_of_mem c mem)
        · exact fun inside => noOpening (List.infix_cons inside)
        · intro last
          apply apart
          rw [List.getLast?_cons, last]
          rfl
      rw [List.cons_append, bindChars_of_none other (replacement?_eq_none unopened), tail,
        List.cons_append]

/-- A text without quotes and braces passes, whatever follows. -/
theorem bindChars_unbraced {s : List Char} (noQuote : '\'' ∉ s) (noBrace : '\x7b' ∉ s)
    (rest : List Char) :
    bindChars values false (s ++ rest) = s ++ bindChars values false rest := by
  apply bindChars_append noQuote
  · intro opening
    exact noBrace (opening.subset (by simp))
  · intro last
    exact absurd (List.mem_of_getLast? last) noBrace

theorem bindChars_fixed {s : List Char} (fixed : Fixed s) (rest : List Char) :
    bindChars values false (s ++ rest) = s ++ bindChars values false rest :=
  bindChars_unbraced (fun mem => (unopened_of_isFixed (fixed _ mem)).1 rfl)
    (fun mem => (unopened_of_isFixed (fixed _ mem)).2 rfl) rest

/-- Inside a literal every quote is doubled, so that the scan stays inside up to the last one. -/
theorem bindChars_doubleQuotes (cs rest : List Char) :
    bindChars values true (Literal.doubleQuotes cs ++ '\'' :: rest) =
      Literal.doubleQuotes cs ++ '\'' :: bindChars values false rest := by
  induction cs with
  | nil => exact bindChars_quote true rest
  | cons c cs ih =>
      rw [Literal.doubleQuotes, List.flatMap_cons, ← Literal.doubleQuotes, List.append_assoc,
        List.append_assoc]
      by_cases quote : c = '\''
      · rw [if_pos quote, List.cons_append, List.cons_append, bindChars_quote, bindChars_quote]
        simp [ih]
      · rw [if_neg quote, List.singleton_append, bindChars_quoted quote, ih]
        rfl

/-- The SQL of a literal passes, whatever is in it. -/
theorem bindChars_sql (l : Literal) (rest : List Char) :
    bindChars values false (l.sql.toList ++ rest) =
      l.sql.toList ++ bindChars values false rest := by
  cases isText : l.isText with
  | true =>
      obtain ⟨cs, text⟩ := Literal.sql_of_isText isText
      rw [text, List.append_assoc, List.cons_append, bindChars_quote, List.singleton_append,
        Bool.not_false, bindChars_doubleQuotes]
      simp
  | false =>
      have solid := Literal.solid_sql isText
      exact bindChars_unbraced solid.inert.noQuote solid.noBrace rest

/-! ## What is replaced -/

theorem cutName_append {name : List Char} (noBrace : '\x7d' ∉ name) (rest : List Char) :
    cutName (name ++ '\x7d' :: '\x7d' :: rest) = some (name, rest) := by
  induction name with
  | nil => rfl
  | cons c name ih =>
      have later := ih fun mem => noBrace (List.mem_cons_of_mem c mem)
      rw [List.cons_append, cutName, later]
      · rfl
      · rintro _ rfl
        exact absurd List.mem_cons_self noBrace

variable {name : String}

/-- No brace and no quote is part of a name. -/
theorem not_mem_of_isIdentifier (identifier : Name.isIdentifier name = true) {c : Char}
    (other : Name.isDottedPart c = false) : c ∉ name.toList := by
  have dotted := Name.isDottedChars_of_isIdentifierChars identifier
  intro mem
  simp [Name.isDottedPart_of_mem dotted c mem] at other

theorem replacement?_placeholder (values : Bindings) (identifier : Name.isIdentifier name = true)
    (rest : List Char) :
    replacement? values ((Name.placeholder name).toList ++ rest) =
      (values.find? name).map fun l => (l, rest) := by
  have cutting : cutName (name.toList ++ ['\x7d', '\x7d'] ++ rest) = some (name.toList, rest) := by
    rw [List.append_assoc]
    exact cutName_append (not_mem_of_isIdentifier identifier (by decide)) rest
  rw [Name.toList_placeholder, List.cons_append, List.cons_append, replacement?, cutting,
    Option.bind_some, String.ofList_toList]

/-- A placeholder with a value is replaced by it. -/
theorem bindChars_of_bound {l : Literal} (identifier : Name.isIdentifier name = true)
    (bound : values.find? name = some l) (rest : List Char) :
    bindChars values false ((Name.placeholder name).toList ++ rest) =
      l.sql.toList ++ bindChars values false rest := by
  have leading := replacement?_placeholder values identifier rest
  rw [bound, Name.toList_placeholder] at leading
  rw [Name.toList_placeholder]
  exact bindChars_of_replacement (by decide) leading

/-- A placeholder without a value passes. -/
theorem bindChars_of_unbound (identifier : Name.isIdentifier name = true)
    (unbound : values.find? name = none) (rest : List Char) :
    bindChars values false ((Name.placeholder name).toList ++ rest) =
      (Name.placeholder name).toList ++ bindChars values false rest := by
  have leading := replacement?_placeholder values identifier rest
  rw [unbound, Name.toList_placeholder] at leading
  have noBrace : '\x7b' ∉ name.toList ++ ['\x7d', '\x7d'] := by
    simp [not_mem_of_isIdentifier identifier (c := '\x7b') (by decide)]
  have noQuote : '\'' ∉ name.toList ++ ['\x7d', '\x7d'] := by
    simp [not_mem_of_isIdentifier identifier (c := '\'') (by decide)]
  -- Behind the first brace there is only one left, which opens nothing.
  have noOpening : ¬ ['\x7b', '\x7b'] <:+: '\x7b' :: (name.toList ++ ['\x7d', '\x7d']) := by
    intro opening
    rcases List.infix_cons_iff.mp opening with first | later
    · exact noBrace ((List.cons_prefix_cons.mp first).2.subset (by simp))
    · exact noBrace (later.subset (by simp))
  have last : ('\x7b' :: (name.toList ++ ['\x7d', '\x7d'])).getLast? = some '\x7d' := by
    rw [← List.cons_append, List.getLast?_append]
    rfl
  have passes : bindChars values false ('\x7b' :: (name.toList ++ ['\x7d', '\x7d']) ++ rest) =
      '\x7b' :: (name.toList ++ ['\x7d', '\x7d']) ++ bindChars values false rest :=
    bindChars_append (by simp [noQuote]) noOpening (by simp [last])
  have first : bindChars values false
      ('\x7b' :: '\x7b' :: (name.toList ++ ['\x7d', '\x7d']) ++ rest) = '\x7b' :: _ :=
    bindChars_of_none (by decide) leading
  rw [Name.toList_placeholder, first]
  exact congrArg ('\x7b' :: ·) passes

/-! ## Woven templates -/

/-- A text without quotes in which no placeholder opens. -/
def Unopened (cs : List Char) : Prop := '\'' ∉ cs ∧ ¬ ['\x7b', '\x7b'] <:+: cs

/-- A phrase passes in front of what may follow a fragment. -/
theorem bindChars_phrase {cs : List Char} (phrase : Phrase Unopened cs) {rest : List Char}
    (closes : Closes rest) :
    bindChars values false (cs ++ rest) = cs ++ bindChars values false rest := by
  induction phrase with
  | nil => rfl
  | @fixed c cs fixed _ ih =>
      have first : bindChars values false ([c] ++ (cs ++ rest)) = _ :=
        bindChars_fixed (by simpa [Fixed] using fixed) (cs ++ rest)
      rw [List.cons_append, ← List.singleton_append, first, ih]
      rfl
  | raw unopened follows _ ih =>
      obtain ⟨noQuote, noOpening⟩ := unopened
      have noBrace := (follows.append closes).head?_ne (c := '\x7b') (by decide)
      rw [List.append_assoc, bindChars_append noQuote noOpening fun _ => noBrace, ih,
        List.append_assoc]

/-- A literal in its place, when more parameters have a value. -/
theorem bindChars_literalText {env env' : Environment}
    (later : ∀ name, env' name = (env name).or (values.find? name)) (l : Literal)
    (rest : List Char) :
    bindChars values false ((literalText env l).toList ++ rest) =
      (literalText env' l).toList ++ bindChars values false rest := by
  unfold literalText
  cases parameter : l.placeholder? with
  | none => exact bindChars_sql l rest
  | some name =>
      have identifier := Literal.isIdentifier_of_placeholder? parameter
      dsimp only
      rw [later name]
      cases env name with
      | some bound => exact bindChars_sql bound rest
      | none =>
          cases value : values.find? name with
          | some bound => exact bindChars_of_bound identifier value rest
          | none => exact bindChars_of_unbound identifier value rest

/-- A woven template is filled in two phases as it is filled at once. -/
theorem Template.Woven.bindChars_fill {t : Template} (woven : t.Woven Unopened)
    {env env' : Environment} (later : ∀ name, env' name = (env name).or (values.find? name))
    {rest : List Char} (closes : Closes rest) :
    bindChars values false ((t.fill env).toList ++ rest) =
      (t.fill env').toList ++ bindChars values false rest := by
  induction woven generalizing rest with
  | nil => rfl
  | phrase phrase => simpa [ofText, Piece.fill] using bindChars_phrase phrase closes
  | fixed fixed _ ih =>
      rw [fill_cons, fill_cons, String.toList_append, String.toList_append, List.append_assoc,
        List.append_assoc, Piece.fill, bindChars_fixed fixed, ih closes]
      rfl
  | slot l => simpa [Piece.fill] using bindChars_literalText later l rest
  | seam _ seam _ first second =>
      rw [toList_fill_text, toList_fill_text, List.append_assoc, List.append_assoc,
        List.append_assoc, List.append_assoc, first (seam.closes_append _),
        bindChars_fixed seam.fixed, second closes]

end Sql

namespace Configuration

variable {c : Configuration} {q : Bindings}

/-- The values of both phases together. A default does not hide a value of the second phase. -/
theorem environment_union (p : Bindings) (noDefault : ∀ name, q.contains name = true →
      (c.parameters.find? name).bind Parameter.default = none) (name : String) :
    c.environment (p.union q) name = (c.environment p name).or (q.find? name) := by
  rw [environment, environment, NameMap.find?_union]
  cases first : p.find? name with
  | some l => rfl
  | none =>
      cases second : q.find? name with
      | none => simp
      | some l => rw [noDefault name (by rw [NameMap.contains, second]; rfl)]; rfl

/--
Some parameters bound at the compilation and others in the statement give the statement that all of
them bound at the compilation give, provided that no default stands in for the second ones, and that
no text that is SQL as it stands holds a quote or opens a placeholder.
-/
theorem bindText_compile (built : c.Built) (valid : c.validate = .ok ())
    (raw : ∀ s ∈ c.rawTexts, '\'' ∉ s.toList ∧ ¬ ['\x7b', '\x7b'] <:+: s.toList)
    (settings : Settings) (p : Bindings) (noDefault : ∀ name, q.contains name = true →
      (c.parameters.find? name).bind Parameter.default = none) :
    ∃ r r', c.compile settings p = .ok r ∧ c.compile settings (p.union q) = .ok r' ∧
      Sql.bindText q r.sql = r'.sql := by
  refine ⟨_, _, compile_of_valid valid settings p, compile_of_valid valid settings (p.union q), ?_⟩
  have woven : (c.template settings.separator).Woven Sql.Unopened :=
    woven_template built.parts raw settings.separator
  have bound := woven.bindChars_fill (environment_union p noDefault) .nil
  rw [List.append_nil, Sql.bindChars_nil, List.append_nil] at bound
  rw [Sql.bindText, bound]
  exact String.ofList_toList

end Configuration

/-- A period that looks like the end of a literal and like a placeholder. -/
def strangePeriod : Bindings :=
  NameMap.empty.insert "grain" (.string ("it's " ++ Name.placeholder "from"))

/-- The first day is bound in WHERE and HAVING, and nothing happens inside of the period. -/
theorem bindText_compile_totalsByPeriod :
    totalsByPeriod.Built ∧ totalsByPeriod.validate = .ok () ∧
      (∀ s ∈ totalsByPeriod.rawTexts, '\'' ∉ s.toList ∧ ¬ ['\x7b', '\x7b'] <:+: s.toList) ∧
      (∀ name, newYear.contains name = true →
        (totalsByPeriod.parameters.find? name).bind Parameter.default = none) ∧
      ∃ r r', totalsByPeriod.compile .default strangePeriod = .ok r ∧
        totalsByPeriod.compile .default (strangePeriod.union newYear) = .ok r' ∧
        Sql.bindText newYear r.sql = r'.sql ∧
        r'.sql = "SELECT t.kind, DATE_TRUNC('it''s \x7b\x7bfrom\x7d\x7d', t.day), " ++
          "SUM(ROUND(t.amount, \x7b\x7bdigits\x7d\x7d)) AS total FROM transactions t " ++
          "WHERE t.day BETWEEN '2024-01-01' AND '2024-12-31' GROUP BY t.kind " ++
          "HAVING MIN(t.day) = '2024-01-01'" := by
  have raw : ∀ s ∈ totalsByPeriod.rawTexts,
      '\'' ∉ s.toList ∧ ¬ ['\x7b', '\x7b'] <:+: s.toList := by
    decide +kernel
  have noDefault (name : String) (bound : newYear.contains name = true) :
      (totalsByPeriod.parameters.find? name).bind Parameter.default = none := by
    have first : "from" = name := by
      by_contra other
      rw [NameMap.contains, newYear, NameMap.find?_insert, if_neg other] at bound
      cases bound
    rw [← first]
    rfl
  obtain ⟨r, r', first, both, same⟩ := Configuration.bindText_compile totalsByPeriod_built
    totalsByPeriod_valid raw .default strangePeriod noDefault
  refine ⟨totalsByPeriod_built, totalsByPeriod_valid, raw, noDefault, r, r', first, both, same, ?_⟩
  rw [Configuration.compile_of_valid totalsByPeriod_valid] at both
  cases both
  decide +kernel

end RuleQuery
