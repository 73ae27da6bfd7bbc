/-
# The table list that a text is warned of

Several tables behind a FROM, with commas between them, are taken for a join without a condition.
The table list of a FROM goes on until a keyword, a semicolon, or the closing of the parentheses
that the FROM stands in, and what is in parentheses of its own does not count.

The check looks at the first FROM only and counts the parentheses that are opened behind it. One
that is closed without having been opened there is passed over, so the list does not end with the
parentheses around the FROM: the search goes on behind them, among the columns or in a call. The
main statement says when the warning is given, and that it can only be wrong about a comma found in
that way. `bookedYears` is a statement with one table that is warned of.
-/

import Mathlib.Data.List.TakeWhile
import RuleQuery.Proofs.Lexeme.Cutting
import RuleQuery.Proofs.Name
import RuleQuery.Proofs.Report.Calm

namespace RuleQuery.Sql

/-! ## Table lists -/

/-- A token of a table list that is no parenthesis. The words are those that end a list. -/
def Token.GoesOn (t : Token) : Prop :=
  t ≠ .openParen ∧ t ≠ .closeParen ∧ t ≠ .semicolon ∧
    ∀ keyword ∈ ["WHERE", "GROUP", "ORDER", "HAVING", "LIMIT", "UNION", "JOIN"],
      t.isKeyword keyword = false

instance (t : Token) : Decidable t.GoesOn := by
  unfold Token.GoesOn
  infer_instance

/-- A run of tokens whose parentheses match. -/
inductive Matched : List Token → Prop
  | nil : Matched []
  | token {t ts} (bare : t ≠ .openParen ∧ t ≠ .closeParen) (rest : Matched ts) : Matched (t :: ts)
  | group {inner ts} (inside : Matched inner) (rest : Matched ts) :
      Matched (.openParen :: (inner ++ .closeParen :: ts))

/-- A run of tokens that does not leave the table list it stands in. -/
inductive Listed : List Token → Prop
  | nil : Listed []
  | token {t ts} (goesOn : t.GoesOn) (rest : Listed ts) : Listed (t :: ts)
  | group {inner ts} (inside : Matched inner) (rest : Listed ts) :
      Listed (.openParen :: (inner ++ .closeParen :: ts))

/-- Runs of a list with closing parentheses between them. -/
inductive Loose : List Token → Prop
  | listed {list} (listed : Listed list) : Loose list
  | closed {list ts} (listed : Listed list) (rest : Loose ts) : Loose (list ++ .closeParen :: ts)

/-- The table list in front has a comma of its own. -/
def HasComma (ts : List Token) : Prop :=
  ∃ list after, ts = list ++ .comma :: after ∧ Listed list

/-- A comma behind the parenthesis that ends the table list in front, where the list would go on. -/
def HasStrayComma (ts : List Token) : Prop :=
  ∃ list passed after, ts = list ++ .closeParen :: (passed ++ .comma :: after) ∧
    Listed list ∧ Loose passed

/-- The tokens are those behind a FROM. -/
def FollowsFrom (code ts : List Token) : Prop :=
  ∃ before t, code = before ++ t :: ts ∧ t.isKeyword "FROM" = true

/-- The tokens are those behind the first FROM. -/
def FollowsFirstFrom (code ts : List Token) : Prop :=
  ∃ before t, code = before ++ t :: ts ∧ t.isKeyword "FROM" = true ∧
    ∀ u ∈ before, u.isKeyword "FROM" = false

/-- Some FROM has a comma in its table list. -/
def HasListComma (code : List Token) : Prop :=
  ∃ ts, FollowsFrom code ts ∧ HasComma ts

variable {t : Token} {ts list inner code : List Token} {depth : Nat}

theorem FollowsFirstFrom.followsFrom (first : FollowsFirstFrom code ts) : FollowsFrom code ts := by
  obtain ⟨before, t, split, keyword, _⟩ := first
  exact ⟨before, t, split, keyword⟩

theorem Listed.matched (listed : Listed list) : Matched list := by
  induction listed with
  | nil => exact .nil
  | token goesOn _ ih => exact .token ⟨goesOn.1, goesOn.2.1⟩ ih
  | group inside _ ih => exact .group inside ih

theorem Matched.balanced (nested : Matched ts) : Balanced ts := by
  induction nested with
  | nil => exact .of_flat nofun
  | token bare _ ih => exact Balanced.append (.of_flat (List.forall_mem_singleton.mpr bare)) ih
  | group _ _ inside rest =>
      have whole := inside.enclosed.append rest
      simpa using whole

namespace Loose

theorem token {passed : List Token} (goesOn : t.GoesOn) (loose : Loose passed) :
    Loose (t :: passed) := by
  cases loose with
  | listed listed => exact .listed (.token goesOn listed)
  | closed listed rest => exact .closed (.token goesOn listed) rest

theorem group {passed : List Token} (inside : Matched inner) (loose : Loose passed) :
    Loose (.openParen :: (inner ++ .closeParen :: passed)) := by
  cases loose with
  | listed listed => exact .listed (.group inside listed)
  | closed listed rest =>
      have whole := Loose.closed (.group inside listed) rest
      simpa using whole

end Loose

/-! ## The search for a comma -/

/-- Inside parentheses nothing but a parenthesis is looked at. -/
theorem listHasComma_succ (bare : t ≠ .openParen ∧ t ≠ .closeParen) :
    listHasComma (depth + 1) (t :: ts) = listHasComma (depth + 1) ts := by
  rw [listHasComma.eq_def]
  split <;> simp_all

/-- Outside parentheses, a token is a comma, or belongs to the list and is passed over. -/
theorem listHasComma_zero_cons (bare : t ≠ .openParen ∧ t ≠ .closeParen) :
    listHasComma 0 (t :: ts) = true ↔ t = .comma ∨ t.GoesOn ∧ listHasComma 0 ts = true := by
  have goesOn : t.GoesOn ↔ (t = .semicolon || t.isAnyKeyword listEndKeywords) = false := by
    simp [Token.GoesOn, Token.isAnyKeyword, listEndKeywords, bare]
  have search : listHasComma 0 (t :: ts) = if t = .comma then true
      else if t = .semicolon || t.isAnyKeyword listEndKeywords then false
      else listHasComma 0 ts := by
    rw [listHasComma.eq_def]
    split <;> simp_all
  rw [search, goesOn]
  by_cases comma : t = .comma
  · simp [comma]
  · cases (decide (t = .semicolon) || t.isAnyKeyword listEndKeywords) <;> simp [comma]

theorem Matched.listHasComma_append (nested : Matched ts) (depth : Nat) (rest : List Token) :
    listHasComma (depth + 1) (ts ++ rest) = listHasComma (depth + 1) rest := by
  induction nested generalizing depth rest with
  | nil => rfl
  | token bare _ ih => rw [List.cons_append, listHasComma_succ bare, ih]
  | group _ _ inside later =>
      rw [List.cons_append, List.append_assoc, List.cons_append, listHasComma, inside,
        listHasComma, Nat.add_sub_cancel, later]

/-- A comma behind a run of a list is found if none is found in it before. -/
theorem Listed.listHasComma_append (listed : Listed list) {rest : List Token}
    (found : listHasComma 0 rest = true) : listHasComma 0 (list ++ rest) = true := by
  induction listed with
  | nil => exact found
  | token goesOn _ ih =>
      rw [List.cons_append, listHasComma_zero_cons ⟨goesOn.1, goesOn.2.1⟩]
      exact .inr ⟨goesOn, ih⟩
  | group inside _ ih =>
      rw [List.cons_append, List.append_assoc, List.cons_append, listHasComma,
        inside.listHasComma_append, listHasComma, ih]

/-- What is behind a parenthesis is shorter than the whole, which the searches below recur on. -/
theorem length_lt_of_closed {rest : List Token} (split : ts = inner ++ .closeParen :: rest) :
    rest.length < ts.length := by
  rw [split, List.length_append, List.length_cons]
  omega

/-- A comma that is found from inside parentheses is found behind their end. -/
theorem exists_matched {depth : Nat} {ts : List Token}
    (found : listHasComma (depth + 1) ts = true) :
    ∃ inner rest, ts = inner ++ .closeParen :: rest ∧ Matched inner ∧
      listHasComma depth rest = true := by
  match ts with
  | [] => cases found
  | t :: ts =>
    by_cases opens : t = .openParen
    · subst opens
      -- The parentheses that open here end first; those around them end in what is left.
      have deeper : listHasComma (depth + 1 + 1) ts = true := found
      obtain ⟨inside, left, split, nested, later⟩ := exists_matched deeper
      have shorter := length_lt_of_closed split
      obtain ⟨inner, rest, rfl, nested', last⟩ := exists_matched later
      refine ⟨.openParen :: (inside ++ .closeParen :: inner), rest, ?_, .group nested nested', last⟩
      simp [split]
    · by_cases closes : t = .closeParen
      · subst closes
        exact ⟨[], ts, rfl, .nil, found⟩
      · rw [listHasComma_succ ⟨opens, closes⟩] at found
        obtain ⟨inner, rest, rfl, nested, last⟩ := exists_matched found
        exact ⟨t :: inner, rest, rfl, .token ⟨opens, closes⟩ nested, last⟩
termination_by ts.length
decreasing_by all_goals simp only [List.length_cons]; omega

/-- What is passed over before a comma is found are runs of a list and closing parentheses. -/
theorem exists_loose {ts : List Token} (found : listHasComma 0 ts = true) :
    ∃ passed after, ts = passed ++ .comma :: after ∧ Loose passed := by
  match ts with
  | [] => cases found
  | t :: ts =>
    by_cases opens : t = .openParen
    · subst opens
      have deeper : listHasComma (0 + 1) ts = true := found
      obtain ⟨inner, rest, split, nested, later⟩ := exists_matched deeper
      have shorter := length_lt_of_closed split
      obtain ⟨passed, after, rfl, loose⟩ := exists_loose later
      refine ⟨.openParen :: (inner ++ .closeParen :: passed), after, ?_, .group nested loose⟩
      simp [split]
    · by_cases closes : t = .closeParen
      · subst closes
        have outside : listHasComma 0 ts = true := found
        obtain ⟨passed, after, rfl, loose⟩ := exists_loose outside
        exact ⟨.closeParen :: passed, after, rfl, .closed .nil loose⟩
      · by_cases comma : t = .comma
        · subst comma
          exact ⟨[], ts, rfl, .listed .nil⟩
        · rw [listHasComma_zero_cons ⟨opens, closes⟩] at found
          obtain ⟨goesOn, later⟩ := found.resolve_left comma
          obtain ⟨passed, after, rfl, loose⟩ := exists_loose later
          exact ⟨t :: passed, after, rfl, .token goesOn loose⟩
termination_by ts.length
decreasing_by all_goals simp only [List.length_cons]; omega

theorem Loose.listHasComma_append {passed : List Token} (loose : Loose passed)
    (after : List Token) : listHasComma 0 (passed ++ .comma :: after) = true := by
  induction loose with
  | listed listed => exact listed.listHasComma_append rfl
  | closed listed _ ih =>
      rw [List.append_assoc, List.cons_append]
      exact listed.listHasComma_append ih

/-- A comma is found in the table list, or beyond the parenthesis that ends it. -/
theorem listHasComma_zero_iff : listHasComma 0 ts = true ↔ HasComma ts ∨ HasStrayComma ts := by
  constructor
  · intro found
    obtain ⟨passed, after, rfl, loose⟩ := exists_loose found
    cases loose with
    | listed listed => exact .inl ⟨passed, after, rfl, listed⟩
    | closed listed rest => exact .inr ⟨_, _, after, by simp, listed, rest⟩
  · rintro (⟨list, after, rfl, listed⟩ | ⟨list, passed, after, rfl, listed, rest⟩)
    · exact (Loose.listed listed).listHasComma_append after
    · have whole := (Loose.closed listed rest).listHasComma_append after
      simpa using whole

theorem hasImplicitJoin_iff : hasImplicitJoin code = true ↔
    ∃ ts, FollowsFirstFrom code ts ∧ (HasComma ts ∨ HasStrayComma ts) := by
  simp only [← listHasComma_zero_iff]
  constructor
  · intro found
    unfold hasImplicitJoin at found
    split at found
    · cases found
    next t ts stop =>
      have whole := List.takeWhile_append_dropWhile (p := fun t => !t.isKeyword "FROM") (l := code)
      have keyword := List.head?_dropWhile_not (fun t => !t.isKeyword "FROM") code
      rw [stop] at whole keyword
      refine ⟨ts, ⟨_, t, whole.symm, by simpa using keyword, fun u mem => ?_⟩, found⟩
      simpa using List.mem_takeWhile_imp mem
  · rintro ⟨ts, ⟨before, t, rfl, keyword, none⟩, found⟩
    rwa [hasImplicitJoin_append none keyword]

/-! ## Texts -/

/-- The word in front of a text consists of characters of the text. -/
theorem Lexeme.Cut.subset {c : Char} {cs rest : List Char} {l : Lexeme} {w : String}
    (cut : Cut c cs rest l) (word : l.token = .word w) : w.toList ⊆ c :: cs := by
  cases cut with
  | word =>
      cases word
      rw [String.toList_ofList]
      exact List.cons_subset_cons c (List.takeWhile_sublist isWordChar).subset
  | symbol =>
      simp only [symbolToken] at word
      split at word <;> cases word
  | _ => cases word

theorem Lexeme.subset_of_mem_all {cs : List Char} {l : Lexeme} {w : String} (mem : l ∈ all cs)
    (word : l.token = .word w) : w.toList ⊆ cs := by
  induction cs using all.induct with
  | case1 => simp [all] at mem
  | case2 c cs ih =>
      rw [all] at mem
      rcases List.mem_cons.mp mem with rfl | later
      · exact (cut_next c cs).subset word
      · have rest : (next c cs).2 ⊆ c :: cs := by
          rw [← next_append c cs]
          exact List.subset_append_right _ _
        exact fun d inside => rest (ih later inside)

theorem not_isBlank_of_toUpper {c : Char} (letter : c.toUpper = 'F') :
    Text.isBlank c = false := by
  by_cases lower : 97 ≤ c.toNat ∧ c.toNat ≤ 122
  · grind [Text.isBlank]
  · rw [Name.toUpper_of_not_lower lower] at letter
    rw [letter]
    decide

/-- A text with a FROM in it is not blank. -/
theorem exists_shown_of_isKeyword {sql : String} (mem : t ∈ codeOf sql)
    (keyword : t.isKeyword "FROM" = true) : ∃ c ∈ sql.toList, Text.isBlank c = false := by
  obtain ⟨l, listed, rfl⟩ := List.mem_map.mp (List.mem_filter.mp (List.mem_filter.mp mem).1).1
  cases token : l.token with
  | word w =>
      rw [token] at keyword
      have subset := Lexeme.subset_of_mem_all listed token
      have same : Text.upperAscii w = "FROM" := beq_iff_eq.mp keyword
      have letters : w.toList.map Char.toUpper = ['F', 'R', 'O', 'M'] := by
        simpa [Text.upperAscii] using congrArg String.toList same
      obtain ⟨c, cs, chars, letter, _⟩ := List.map_eq_cons_iff.mp letters
      exact ⟨c, subset (by simp [chars]), not_isBlank_of_toUpper letter⟩
  | _ =>
      rw [token] at keyword
      cases keyword

theorem Report.cartesianProduct_mem {maxLength : Nat} {sql : String} :
    .cartesianProduct ∈ (Report.of maxLength sql).warnings ↔
      hasImplicitJoin (codeOf sql) = true := by
  rcases of_cases maxLength sql with ⟨blank, report⟩ | report
  · have silent : hasImplicitJoin (codeOf sql) = false := by
      rw [Bool.eq_false_iff, Ne, hasImplicitJoin_iff]
      rintro ⟨ts, ⟨before, t, split, keyword, _⟩, _⟩
      have listed : t ∈ codeOf sql := by simp [split]
      obtain ⟨c, mem, shown⟩ := exists_shown_of_isKeyword listed keyword
      simp [blank c mem] at shown
    simp [report, silent]
  · simp [report, Sql.warnings]

/--
A text is warned of a Cartesian product exactly if the table list of its first FROM has a comma, or
a comma stands behind the parenthesis that ends the list. The warning tells of a comma in the list
of some FROM unless it is given in the second case and there is none.
-/
theorem Report.cartesianProduct_mem_iff (maxLength : Nat) (sql : String) :
    (.cartesianProduct ∈ (Report.of maxLength sql).warnings ↔
      ∃ ts, FollowsFirstFrom (codeOf sql) ts ∧ (HasComma ts ∨ HasStrayComma ts)) ∧
    ((.cartesianProduct ∈ (Report.of maxLength sql).warnings → HasListComma (codeOf sql)) ↔
      ∀ ts, FollowsFirstFrom (codeOf sql) ts → HasStrayComma ts → HasListComma (codeOf sql)) := by
  rw [cartesianProduct_mem, hasImplicitJoin_iff]
  refine ⟨Iff.rfl, fun warned ts first stray => warned ⟨ts, first, .inr stray⟩, ?_⟩
  rintro stray ⟨ts, first, comma | beyond⟩
  · exact ⟨ts, first.followsFrom, comma⟩
  · exact stray ts first beyond

/-! ## A FROM outside of parentheses -/

/-- The parenthesis that ends a list from within is closed without having been opened. -/
theorem HasStrayComma.closesTooEarly (stray : HasStrayComma ts) : closesTooEarly 0 ts = true := by
  obtain ⟨list, passed, after, rfl, listed, _⟩ := stray
  rw [listed.matched.balanced.closes]
  rfl

/--
If the parentheses match in front of the first FROM, and none is closed too early behind it, the
warning says that the table list has a comma.
-/
theorem Report.cartesianProduct_mem_of_balanced {maxLength : Nat} {sql : String}
    {before : List Token} (split : codeOf sql = before ++ t :: ts)
    (keyword : t.isKeyword "FROM" = true) (first : ∀ u ∈ before, u.isKeyword "FROM" = false)
    (outside : Balanced before) (closed : closesTooEarly 0 (codeOf sql) = false) :
    .cartesianProduct ∈ (Report.of maxLength sql).warnings ↔ HasComma ts := by
  have inside : ¬ HasStrayComma ts := by
    intro stray
    have early : closesTooEarly 0 (t :: ts) = true := by
      cases t with
      | word w => exact stray.closesTooEarly
      | _ => cases keyword
    rw [split, outside.closes, early] at closed
    cases closed
  rw [cartesianProduct_mem, split, hasImplicitJoin_append first keyword, listHasComma_zero_iff,
    or_iff_left inside]

/-! ## A statement with one table -/

/-- Outside parentheses, a comma is in front or behind a token of the list. -/
theorem hasComma_cons (unopened : t ≠ .openParen) :
    HasComma (t :: ts) ↔ t = .comma ∨ t.GoesOn ∧ HasComma ts := by
  constructor
  · rintro ⟨list, after, split, listed⟩
    cases listed with
    | nil => exact .inl (List.cons.inj split).1
    | token goesOn rest =>
        obtain ⟨rfl, rfl⟩ := List.cons.inj split
        exact .inr ⟨goesOn, _, after, rfl, rest⟩
    | group => exact absurd (List.cons.inj split).1 unopened
  · rintro (rfl | ⟨goesOn, list, after, rfl, listed⟩)
    · exact ⟨[], ts, rfl, .nil⟩
    · exact ⟨t :: list, after, rfl, .token goesOn listed⟩

theorem not_hasComma_nil : ¬ HasComma [] := by
  rintro ⟨list, after, split, _⟩
  cases list <;> cases split

theorem not_hasListComma_nil : ¬ HasListComma [] := by
  rintro ⟨ts, ⟨before, u, split, _⟩, _⟩
  cases before <;> cases split

theorem hasListComma_cons : HasListComma (t :: code) ↔
    t.isKeyword "FROM" = true ∧ HasComma code ∨ HasListComma code := by
  constructor
  · rintro ⟨ts, ⟨before, u, split, keyword⟩, comma⟩
    cases before with
    | nil =>
        obtain ⟨rfl, rfl⟩ := List.cons.inj split
        exact .inl ⟨keyword, comma⟩
    | cons v before => exact .inr ⟨ts, ⟨before, u, (List.cons.inj split).2, keyword⟩, comma⟩
  · rintro (⟨keyword, comma⟩ | ⟨ts, ⟨before, u, rfl, keyword⟩, comma⟩)
    · exact ⟨code, ⟨[], t, rfl, keyword⟩, comma⟩
    · exact ⟨ts, ⟨t :: before, u, rfl, keyword⟩, comma⟩

/-- Payments with the years in which they were booked. -/
def bookedYears : String := "SELECT EXTRACT(YEAR FROM booked_on), amount FROM payments"

/-- The comma behind the call is taken for one of a table list. -/
theorem Report.bookedYears_warned :
    .cartesianProduct ∈ (Report.of 1000 bookedYears).warnings ∧
      ¬ HasListComma (codeOf bookedYears) := by
  have code : codeOf bookedYears = [.word "SELECT", .word "EXTRACT", .openParen, .word "YEAR",
      .word "FROM", .word "booked_on", .closeParen, .comma, .word "amount", .word "FROM",
      .word "payments"] := by decide +kernel
  have year : ¬ HasComma [.word "booked_on", .closeParen, .comma, .word "amount", .word "FROM",
      .word "payments"] := by
    have closed : ¬ Token.GoesOn .closeParen := fun goesOn => goesOn.2.1 rfl
    simp [hasComma_cons, closed]
  have table : ¬ HasComma [.word "payments"] := by
    simp [hasComma_cons, not_hasComma_nil]
  refine ⟨by decide +kernel, ?_⟩
  rw [code]
  simp +decide [hasListComma_cons, year, table, not_hasListComma_nil]

end RuleQuery.Sql
