/-
# Tokens in which nothing is found

The check of a text looks at its tokens one by one and at their order. A token is harmless if it is
neither a comment nor left open, starts no statement and is no name that begins with a digit; it is
calm if in addition it is none of the keywords that need something behind them. A passage is a run
of harmless tokens with matching parentheses and a calm token at its end. Passages one after another
are a passage, and in a passage behind a SELECT, with a FROM in it, no fault is found.
-/

import Mathlib.Data.List.Basic
import RuleQuery.Proofs.Report.Basic

namespace RuleQuery.Sql

/-- The words that have a place of their own in a statement. -/
def reservedWords : List String := ["SELECT", "FROM", "WHERE", "HAVING", "BY"]

namespace Token

/-- A token that is no fault by itself, and no second SELECT. -/
def isHarmless : Token → Bool
  | .word w => !isNumberedName w && !Text.sameLetters w "SELECT"
  | .string closed => closed
  | .openParen | .closeParen | .comma | .symbol _ => true
  | .quotedName _ | .lineComment | .blockComment _ | .semicolon | .blank => false

/-- A harmless token that may stand anywhere. -/
def isCalm (t : Token) : Bool :=
  t.isHarmless && !t.isAnyKeyword reservedWords

/-- A calm token that is no parenthesis. -/
def isFlat (t : Token) : Bool :=
  t.isCalm && t != .openParen && t != .closeParen

variable {t : Token}

theorem isHarmless_of_isCalm (calm : t.isCalm = true) : t.isHarmless = true :=
  (Bool.and_eq_true _ _ |>.mp calm).1

theorem isCalm_of_isFlat (flat : t.isFlat = true) : t.isCalm = true := by
  simp only [isFlat, Bool.and_eq_true] at flat
  exact flat.1.1

theorem isKeyword_of_isCalm (calm : t.isCalm = true) {keyword : String}
    (reserved : keyword ∈ reservedWords) : t.isKeyword keyword = false := by
  have none := (Bool.and_eq_true _ _ |>.mp calm).2
  simp only [isAnyKeyword, Bool.not_eq_true', List.any_eq_false] at none
  simpa using none keyword reserved

theorem isKeyword_select_of_isHarmless (harmless : t.isHarmless = true) :
    t.isKeyword "SELECT" = false := by
  cases t <;> simp_all [isHarmless, isKeyword]

end Token

/-! ## Matching parentheses -/

/-- The parentheses in a run of tokens match, wherever it stands. -/
structure Balanced (ts : List Token) : Prop where
  count : ts.count .openParen = ts.count .closeParen
  closes : ∀ depth rest, closesTooEarly depth (ts ++ rest) = closesTooEarly depth rest

namespace Balanced

variable {ts us : List Token}

theorem append (first : Balanced ts) (second : Balanced us) : Balanced (ts ++ us) where
  count := by rw [List.count_append, List.count_append, first.count, second.count]
  closes depth rest := by rw [List.append_assoc, first.closes, second.closes]

theorem of_flat (flat : ∀ t ∈ ts, t ≠ .openParen ∧ t ≠ .closeParen) : Balanced ts where
  count := by
    rw [List.count_eq_zero.mpr fun mem => (flat _ mem).1 rfl,
      List.count_eq_zero.mpr fun mem => (flat _ mem).2 rfl]
  closes depth rest := by
    induction ts with
    | nil => rfl
    | cons t ts ih =>
        obtain ⟨⟨notOpen, notClose⟩, others⟩ := List.forall_mem_cons.mp flat
        rw [List.cons_append, closesTooEarly.eq_def]
        split <;> simp_all

theorem enclosed (inside : Balanced ts) : Balanced (.openParen :: ts ++ [.closeParen]) where
  count := by simp [List.count_append, inside.count]
  closes depth rest := by
    rw [List.append_assoc, List.cons_append, closesTooEarly, inside.closes]
    rfl

/-- In a run with matching parentheses, they match. -/
theorem parenthesisFaults_eq_nil (balanced : Balanced ts) : parenthesisFaults ts = [] := by
  have closed : closesTooEarly 0 ts = false := by
    have alone := balanced.closes 0 []
    rwa [List.append_nil] at alone
  simp [parenthesisFaults, onlyIf, balanced.count, closed]

end Balanced

/-! ## Calm runs -/

/-- A run of calm tokens with matching parentheses. -/
structure Calm (ts : List Token) : Prop where
  nonempty : ts ≠ []
  calm : ∀ t ∈ ts, t.isCalm = true
  balanced : Balanced ts

/-- A run of calm tokens without parentheses. -/
def Flat (ts : List Token) : Prop := ∀ t ∈ ts, t.isFlat = true

instance (ts : List Token) : Decidable (Flat ts) :=
  decidable_of_iff (ts.all Token.isFlat = true) List.all_eq_true

theorem Flat.balanced {ts : List Token} (flat : Flat ts) : Balanced ts := by
  refine .of_flat fun t mem => ?_
  have known := flat t mem
  simp only [Token.isFlat, Bool.and_eq_true, bne_iff_ne] at known
  exact ⟨known.1.2, known.2⟩

theorem Flat.calm {ts : List Token} (flat : Flat ts) : ∀ t ∈ ts, t.isCalm = true := fun t mem =>
  Token.isCalm_of_isFlat (flat t mem)

theorem Flat.append {ts us : List Token} (first : Flat ts) (second : Flat us) : Flat (ts ++ us) :=
  fun t mem => (List.mem_append.mp mem).elim (first t) (second t)

namespace Calm

variable {ts us : List Token}

theorem of_flat (flat : Flat ts) (nonempty : ts ≠ []) : Calm ts :=
  ⟨nonempty, flat.calm, flat.balanced⟩

/-- A calm run with calm tokens behind it. -/
theorem append_flat (first : Calm ts) (flat : Flat us) : Calm (ts ++ us) where
  nonempty := by simp [first.nonempty]
  calm t mem := (List.mem_append.mp mem).elim (first.calm t) (flat.calm t)
  balanced := first.balanced.append flat.balanced

theorem append (first : Calm ts) (second : Calm us) : Calm (ts ++ us) where
  nonempty := by simp [first.nonempty]
  calm t mem := (List.mem_append.mp mem).elim (first.calm t) (second.calm t)
  balanced := first.balanced.append second.balanced

/-- A calm run in parentheses, with calm tokens in front of either. -/
theorem enclosed {front back : List Token} (calm : Calm ts) (hf : Flat front) (hb : Flat back) :
    Calm (front ++ .openParen :: back ++ ts ++ [.closeParen]) where
  nonempty := by simp
  calm t mem := by
    have parens : Token.isCalm .openParen = true ∧ Token.isCalm .closeParen = true := by decide
    simp only [List.mem_append, List.mem_cons, List.not_mem_nil, or_false] at mem
    rcases mem with ((mem | rfl | mem) | mem) | rfl
    · exact hf.calm t mem
    · exact parens.1
    · exact hb.calm t mem
    · exact calm.calm t mem
    · exact parens.2
  balanced := by
    have inside := (hb.balanced.append calm.balanced).enclosed
    simpa using hf.balanced.append inside

end Calm

/-! ## Passages -/

/-- A run of harmless tokens with matching parentheses, the last of which is calm. -/
structure Passage (ts : List Token) : Prop where
  nonempty : ts ≠ []
  harmless : ∀ t ∈ ts, t.isHarmless = true
  balanced : Balanced ts
  last : ∀ t ∈ ts.getLast?, t.isCalm = true

namespace Passage

variable {ts us : List Token}

theorem of_calm (calm : Calm ts) : Passage ts where
  nonempty := calm.nonempty
  harmless t mem := Token.isHarmless_of_isCalm (calm.calm t mem)
  balanced := calm.balanced
  last t mem := calm.calm t (List.mem_of_getLast? mem)

theorem append (first : Passage ts) (second : Passage us) : Passage (ts ++ us) where
  nonempty := by simp [first.nonempty]
  harmless t mem := (List.mem_append.mp mem).elim (first.harmless t) (second.harmless t)
  balanced := first.balanced.append second.balanced
  last t mem := by
    rw [List.getLast?_append_of_ne_nil _ second.nonempty] at mem
    exact second.last t mem

/-- Keywords may stand in front of a calm run. -/
theorem of_keywords {keywords : List Token} (harmless : ∀ t ∈ keywords, t.isHarmless = true)
    (bare : ∀ t ∈ keywords, t ≠ .openParen ∧ t ≠ .closeParen) (calm : Calm ts) :
    Passage (keywords ++ ts) where
  nonempty := by simp [calm.nonempty]
  harmless t mem := (List.mem_append.mp mem).elim (harmless t) ((of_calm calm).harmless t)
  balanced := (Balanced.of_flat bare).append calm.balanced
  last t mem := by
    rw [List.getLast?_append_of_ne_nil _ calm.nonempty] at mem
    exact calm.calm t (List.mem_of_getLast? mem)

end Passage

/-! ## The check of a passage -/

/-- The keyword that the statement starts with. -/
def selectKeyword : Token := .word "SELECT"

/-- Without a second SELECT, nothing is selected in a union. -/
theorem hasUnionSelect_eq_false (t : Token) {ts : List Token}
    (single : ∀ u ∈ ts, u.isKeyword "SELECT" = false) : hasUnionSelect (t :: ts) = false := by
  induction ts generalizing t with
  | nil => rfl
  | cons u ts ih =>
      obtain ⟨second, others⟩ := List.forall_mem_cons.mp single
      have third : ts.head?.any (Token.isKeyword "SELECT") = false := by
        cases ts with
        | nil => rfl
        | cons v ts => exact others v (by simp)
      rw [hasUnionSelect, second, third, ih u others]
      simp

/-- Two neighbours of which the first never passes do not pass. -/
theorem anyNeighbours_eq_false {α : Type} {test : α → α → Bool} {as : List α}
    (none : ∀ a ∈ as, ∀ b, test a b = false) : anyNeighbours test as = false := by
  match as with
  | [] | [_] => rfl
  | a :: b :: rest =>
    rw [anyNeighbours, none a (by simp),
      anyNeighbours_eq_false fun c mem => none c (by simp [mem])]
    rfl

namespace Passage

variable {body : List Token}

theorem isHarmless_cons (passage : Passage body) {t : Token} (mem : t ∈ selectKeyword :: body) :
    t = selectKeyword ∨ t.isHarmless = true :=
  (List.mem_cons.mp mem).imp_right (passage.harmless t)

/-- A token that would be a fault by itself is not there. -/
theorem not_mem (passage : Passage body) {t : Token} (harmful : t.isHarmless = false)
    (other : t ≠ selectKeyword) : t ∉ selectKeyword :: body := by
  intro mem
  rcases passage.isHarmless_cons mem with same | harmless
  · exact other same
  · rw [harmful] at harmless
    cases harmless

/-- No token of a passage is a comment. -/
theorem code_eq (passage : Passage body) :
    (selectKeyword :: body).filter (fun t => !t.isComment) = selectKeyword :: body := by
  refine List.filter_eq_self.mpr fun t mem => ?_
  rcases passage.isHarmless_cons mem with rfl | harmless
  · rfl
  · cases t <;> simp_all [Token.isHarmless, Token.isComment]

/-- A calm token ends the statement, and no keyword that lacks something. -/
theorem endsDangling_eq (passage : Passage body) :
    endsDangling (selectKeyword :: body) = false := by
  obtain ⟨front, last, rfl⟩ := List.eq_nil_or_concat' body |>.resolve_left passage.nonempty
  have calm : last.isCalm = true := passage.last last (by simp)
  have by_ : last.isKeyword "BY" = false := Token.isKeyword_of_isCalm calm (by decide)
  have dangling : last.isAnyKeyword danglingKeywords = false := by
    have reserved : ∀ keyword ∈ danglingKeywords, keyword ∈ reservedWords := by decide
    simpa [Token.isAnyKeyword, List.any_eq_false] using fun keyword mem =>
      Token.isKeyword_of_isCalm calm (reserved keyword mem)
  have notSemicolon : last ≠ .semicolon := by
    rintro rfl
    cases calm
  unfold endsDangling
  rw [← List.cons_append, List.reverse_append, List.reverse_singleton, List.singleton_append,
    List.dropWhile_cons_of_neg (by simpa using notSemicolon)]
  cases (selectKeyword :: front).reverse with
  | nil => exact dangling
  | cons before rest => simp [dangling, by_]

/-- Nothing in a passage behind a SELECT is dangerous. -/
theorem dangers_eq_nil (passage : Passage body) :
    dangers (selectKeyword :: body) (selectKeyword :: body) = [] := by
  have noSemicolon := passage.not_mem (t := .semicolon) rfl (by decide)
  have stacked : anyNeighbours (fun a b => a == .semicolon && b.isAnyKeyword stackedKeywords)
      (selectKeyword :: body) = false := by
    refine anyNeighbours_eq_false fun a mem b => ?_
    have other : a ≠ .semicolon := fun same => noSemicolon (same ▸ mem)
    simp [other]
  have union : hasUnionSelect (selectKeyword :: body) = false :=
    hasUnionSelect_eq_false _ fun u mem =>
      Token.isKeyword_select_of_isHarmless (passage.harmless u mem)
  have trailing : ((selectKeyword :: body).getLast? == some .lineComment) = false := by
    rw [beq_eq_false_iff_ne]
    intro last
    exact passage.not_mem (t := .lineComment) rfl (by decide) (List.mem_of_getLast? last)
  have block : (selectKeyword :: body).any Token.isBlockComment = false := by
    refine List.any_eq_false.mpr fun t mem => ?_
    cases t with
    | blockComment closed =>
        exact absurd mem (passage.not_mem rfl (by simp [selectKeyword]))
    | _ => exact Bool.false_ne_true
  simp only [dangers, stacked, union, trailing, block, onlyIf]
  rfl

/-- No fault is found in a passage behind a SELECT if it has a FROM. -/
theorem faults_eq_nil (passage : Passage body)
    (source : body.any (Token.isKeyword "FROM") = true) :
    faults (selectKeyword :: body) = [] := by
  have structural : structureFaults (selectKeyword :: body) = [] := by
    have start : selectKeyword.isAnyKeyword leadingKeywords = true := by decide
    simp [structureFaults, onlyIf, passage.endsDangling_eq, start, source]
  have parentheses : parenthesisFaults (selectKeyword :: body) = [] := by
    have keyword : Balanced [selectKeyword] := .of_flat (by decide)
    exact (keyword.append passage.balanced).parenthesisFaults_eq_nil
  have quotes : quoteFaults (selectKeyword :: body) = [] := by
    have string := passage.not_mem (t := .string false) rfl (by decide)
    have quotedName := passage.not_mem (t := .quotedName false) rfl (by decide)
    simp [quoteFaults, onlyIf, string, quotedName]
  have names : nameFaults (selectKeyword :: body) = [] := by
    refine List.filterMap_eq_nil_iff.mpr fun t mem => ?_
    rcases passage.isHarmless_cons mem with rfl | harmless
    · rfl
    · cases t <;> simp_all [Token.isHarmless]
  simp [faults, passage.code_eq, structural, passage.dangers_eq_nil, parentheses, quotes, names]

end Passage

/-! ## The table list -/

/-- A token outside parentheses that is no comma leaves the search for one to what follows. -/
theorem listHasComma_cons {t : Token} (flat : t.isFlat = true) (other : t ≠ .comma)
    {ts : List Token} (later : listHasComma 0 ts = false) : listHasComma 0 (t :: ts) = false := by
  simp only [Token.isFlat, Bool.and_eq_true, bne_iff_ne] at flat
  rw [listHasComma.eq_def]
  split <;> simp_all

/-- A table list without commas and parentheses leaves the search to what follows. -/
theorem listHasComma_append {ts us : List Token} (flat : Flat ts) (single : .comma ∉ ts)
    (later : listHasComma 0 us = false) : listHasComma 0 (ts ++ us) = false := by
  induction ts with
  | nil => exact later
  | cons t ts ih =>
      obtain ⟨first, others⟩ := List.forall_mem_cons.mp flat
      have notComma : t ≠ .comma := fun same => single (by simp [same])
      have noComma : .comma ∉ ts := fun mem => single (by simp [mem])
      exact listHasComma_cons first notComma (ih others noComma)

/-- The table list that is looked at is the one behind the first FROM. -/
theorem hasImplicitJoin_append {before list : List Token} {t : Token}
    (first : ∀ u ∈ before, u.isKeyword "FROM" = false) (keyword : t.isKeyword "FROM" = true) :
    hasImplicitJoin (before ++ t :: list) = listHasComma 0 list := by
  rw [hasImplicitJoin, List.dropWhile_append_of_pos (by simpa using first),
    List.dropWhile_cons_of_neg (by simp [keyword])]

/-- The keyword in front of the table list. -/
def fromKeyword : Token := .word "FROM"

/--
What a statement is warned of if its table list has no comma: a star behind SELECT, and its length.
-/
theorem warnings_select {selected list : List Token} (calm : ∀ t ∈ selected, t.isCalm = true)
    (single : listHasComma 0 list = false) (maxLength length : Nat) :
    ∀ w ∈ warnings maxLength length (selectKeyword :: selected ++ fromKeyword :: list),
      w = .selectStar ∨ w = .veryLong length := by
  have before : ∀ t ∈ selectKeyword :: selected, t.isKeyword "FROM" = false :=
    List.forall_mem_cons.mpr ⟨by decide, fun t mem =>
      Token.isKeyword_of_isCalm (calm t mem) (show "FROM" ∈ reservedWords by decide)⟩
  have join : hasImplicitJoin (selectKeyword :: selected ++ fromKeyword :: list) = false := by
    rw [hasImplicitJoin_append before (by decide), single]
  have start : selectKeyword.isAnyKeyword ["UPDATE", "DELETE"] = false := by decide
  have head : (selectKeyword :: selected ++ fromKeyword :: list).head? = some selectKeyword := rfl
  intro w mem
  simp only [warnings, join, head, Option.any_some, start, Bool.false_and, List.mem_append,
    mem_onlyIf, Bool.false_eq_true, false_and, or_false] at mem
  exact mem.imp And.right And.right

end RuleQuery.Sql
