/-
# Bindings from the command line

Parameters are bound by texts of the form `name=value`. A value is all that stands behind the first
equals sign; it is read as the declaration of its name says, or, for a name that is not declared, by
its looks. The texts are taken one after another, and the first that cannot be taken ends it all.

What comes out is said without following the order of the texts. All of them can be taken or there
are no bindings, each name has the value that was given for it last, and if no name is given twice
the order does not matter at all. If the bindings then supply every parameter that is required and
has no default, no required parameter is left open in the query.
-/

import Mathlib.Data.List.TakeWhile
import RuleQuery.Command.Run
import RuleQuery.Proofs.Parameter.Value
import RuleQuery.Proofs.Placeholders

namespace RuleQuery.Command

/-- The text gives a value for a name: the first equals sign parts them, blanks around the name. -/
def Assigns (pair name value : String) : Prop :=
  ∃ front : String, '=' ∉ front.toList ∧ pair = front ++ "=" ++ value ∧ name = Text.trim front

/-- The last of the texts that give a value for the name gives this one. -/
def LastAssigns (pairs : List String) (name value : String) : Prop :=
  ∃ before pair after, pairs = before ++ pair :: after ∧ Assigns pair name value ∧
    ∀ later ∈ after, ∀ v, ¬ Assigns later name v

/--
What a value given for a name is taken for. The declaration of the name reads it, or, if there is
none, its looks tell.
-/
inductive Takes (c : Configuration) (name value : String) : Literal → Prop
  | declared {p l} (found : c.parameters.find? name = some p)
      (listed : ∀ values, p.values = some values → value ∈ values)
      (read : p.kind.readValue? value = some l) : Takes c name value l
  | inferred (undeclared : c.parameters.find? name = none) : Takes c name value (inferLiteral value)

/-- The text gives a value that can be taken. -/
def Accepts (c : Configuration) (pair : String) : Prop :=
  ∃ name value l, Assigns pair name value ∧ Takes c name value l

variable {c : Configuration} {pair name value : String} {pairs : List String} {l : Literal}

/-! ## A single text -/

theorem splitPair?_eq_some_iff {front : String} :
    splitPair? pair = some (front, value) ↔ '=' ∉ front.toList ∧ pair = front ++ "=" ++ value := by
  dsimp only [splitPair?]
  constructor
  · intro cut
    have whole := List.takeWhile_append_dropWhile (p := (· ≠ '=')) (l := pair.toList)
    have stop := List.head?_dropWhile_not (· ≠ '=') pair.toList
    split at cut
    · cases cut
    next d v found =>
      cases cut
      rw [found] at whole stop
      have sign : d = '=' := by simpa using stop
      refine ⟨fun inside => ?_, ?_⟩
      · rw [String.toList_ofList] at inside
        simpa using List.mem_takeWhile_imp inside
      · exact String.toList_inj.mp (whole.symm.trans (by simp [sign]))
  · rintro ⟨before, rfl⟩
    have passed : ∀ c ∈ front.toList, decide (c ≠ '=') = true := by
      intro c mem
      rw [decide_eq_true_eq]
      rintro rfl
      exact before mem
    have chars : (front ++ "=" ++ value).toList = front.toList ++ '=' :: value.toList := by simp
    rw [chars, List.dropWhile_append_of_pos passed, List.takeWhile_append_of_pos passed]
    simp

/-- What a text is taken for: the value given for the name, as it is taken. -/
theorem bindPair_eq_ok_iff : bindPair c pair = .ok (name, l) ↔
    ∃ value, Assigns pair name value ∧ Takes c name value l := by
  unfold bindPair
  constructor
  · intro bound
    split at bound
    · cases bound
    next front value cut =>
      obtain ⟨before, split⟩ := splitPair?_eq_some_iff.mp cut
      dsimp only at bound
      split at bound
      next p found =>
        split at bound
        next l' accepted =>
          cases bound
          obtain ⟨listed, read⟩ := Parameter.bind_eq_ok_iff.mp accepted
          exact ⟨value, ⟨front, before, split, rfl⟩, .declared found listed read⟩
        · cases bound
      next undeclared =>
        cases bound
        exact ⟨value, ⟨front, before, split, rfl⟩, .inferred undeclared⟩
  · rintro ⟨value, ⟨front, before, split, rfl⟩, takes⟩
    rw [splitPair?_eq_some_iff.mpr ⟨before, split⟩]
    cases takes with
    | @declared p l found listed read =>
        have accepted : p.bind (Text.trim front) value = .ok l :=
          Parameter.bind_eq_ok_iff.mpr ⟨listed, read⟩
        simp only [found, accepted]
    | inferred undeclared => simp only [undeclared]

/-- A text gives one value for one name. -/
theorem Assigns.unique {name' value' : String} (assigns : Assigns pair name value)
    (other : Assigns pair name' value') : name = name' ∧ value = value' := by
  obtain ⟨front, before, split, rfl⟩ := assigns
  obtain ⟨front', before', split', rfl⟩ := other
  have same := (splitPair?_eq_some_iff.mpr ⟨before, split⟩).symm.trans
    (splitPair?_eq_some_iff.mpr ⟨before', split'⟩)
  cases same
  exact ⟨rfl, rfl⟩

/-- A text that is taken for a value gives it, and no other. -/
theorem assigns_takes_iff_of_bindPair {e : String × Literal} (given : bindPair c pair = .ok e) :
    (∃ value, Assigns pair name value ∧ Takes c name value l) ↔ e.1 = name ∧ e.2 = l := by
  rw [← bindPair_eq_ok_iff, given, Except.ok.injEq, Prod.ext_iff]

/-- It gives none for another name. -/
theorem not_assigns_iff_of_bindPair {e : String × Literal} (given : bindPair c pair = .ok e) :
    (∀ v, ¬ Assigns pair name v) ↔ e.1 ≠ name := by
  obtain ⟨value, assigns, _⟩ := bindPair_eq_ok_iff.mp given
  refine ⟨?_, fun other v assigns' => other (assigns.unique assigns').1⟩
  rintro none rfl
  exact none value assigns

theorem accepts_iff : Accepts c pair ↔ ∃ name l, bindPair c pair = .ok (name, l) := by
  simp only [Accepts, bindPair_eq_ok_iff]
  constructor
  · rintro ⟨name, value, l, given⟩
    exact ⟨name, l, value, given⟩
  · rintro ⟨name, l, value, given⟩
    exact ⟨name, value, l, given⟩

/-! ## All of the texts -/

theorem bindPairsFrom_cons (start : Bindings) :
    bindPairsFrom c start (pair :: pairs) =
      bindPair c pair >>= fun e => bindPairsFrom c (start.insert e.1 e.2) pairs := rfl

/-- There are bindings exactly if every text gives a value that can be taken. -/
theorem exists_bindPairsFrom_iff (start : Bindings) :
    (∃ bindings, bindPairsFrom c start pairs = .ok bindings) ↔ ∀ pair ∈ pairs, Accepts c pair := by
  induction pairs generalizing start with
  | nil => simp [bindPairsFrom]
  | cons pair pairs ih =>
      rw [bindPairsFrom_cons, List.forall_mem_cons, accepts_iff]
      cases bound : bindPair c pair with
      | error failure =>
          refine iff_of_false ?_ fun accepted => ?_
          · rintro ⟨bindings, ends⟩
            cases ends
          · obtain ⟨name, l, other⟩ := accepted.1
            cases other
      | ok e =>
          have first : ∃ name l, (.ok e : Except Failure (String × Literal)) = .ok (name, l) :=
            ⟨e.1, e.2, rfl⟩
          exact (ih (start.insert e.1 e.2)).trans (and_iff_right first).symm

theorem lastAssigns_cons {first : String} : LastAssigns (first :: pairs) name value ↔
    LastAssigns pairs name value ∨
      (Assigns first name value ∧ ∀ pair ∈ pairs, ∀ v, ¬ Assigns pair name v) := by
  constructor
  · rintro ⟨_ | ⟨d, before⟩, pair, after, split, assigns, last⟩
    · obtain ⟨rfl, rfl⟩ := List.cons.inj split
      exact .inr ⟨assigns, last⟩
    · obtain ⟨rfl, rfl⟩ := List.cons.inj split
      exact .inl ⟨before, pair, after, rfl, assigns, last⟩
  · rintro (⟨before, pair, after, rfl, assigns, last⟩ | ⟨assigns, last⟩)
    · exact ⟨first :: before, pair, after, rfl, assigns, last⟩
    · exact ⟨[], first, pairs, rfl, assigns, last⟩

/-- A name has the value that was given for it last, or else the one that it had at the start. -/
theorem find?_of_bindPairsFrom {start bindings : Bindings}
    (bound : bindPairsFrom c start pairs = .ok bindings) : bindings.find? name = some l ↔
      (∃ value, LastAssigns pairs name value ∧ Takes c name value l) ∨
        ((∀ pair ∈ pairs, ∀ v, ¬ Assigns pair name v) ∧ start.find? name = some l) := by
  induction pairs generalizing start with
  | nil =>
      cases bound
      simp [LastAssigns]
  | cons first pairs ih =>
      rw [bindPairsFrom_cons] at bound
      cases given : bindPair c first with
      | error failure =>
          rw [given] at bound
          cases bound
      | ok e =>
          rw [given] at bound
          rw [ih bound, NameMap.find?_insert, List.forall_mem_cons]
          simp only [lastAssigns_cons]
          constructor
          · rintro (⟨value, last, takes⟩ | ⟨none, found⟩)
            · exact .inl ⟨value, .inl last, takes⟩
            · by_cases same : e.1 = name
              · rw [if_pos same] at found
                obtain ⟨value, assigns, takes⟩ :=
                  (assigns_takes_iff_of_bindPair given).mpr ⟨same, Option.some.inj found⟩
                exact .inl ⟨value, .inr ⟨assigns, none⟩, takes⟩
              · rw [if_neg same] at found
                exact .inr ⟨⟨(not_assigns_iff_of_bindPair given).mpr same, none⟩, found⟩
          · rintro (⟨value, last | ⟨assigns, none⟩, takes⟩ | ⟨⟨other, none⟩, found⟩)
            · exact .inl ⟨value, last, takes⟩
            · obtain ⟨same, taken⟩ :=
                (assigns_takes_iff_of_bindPair given).mp ⟨value, assigns, takes⟩
              exact .inr ⟨none, by rw [if_pos same, taken]⟩
            · exact .inr ⟨none, by rwa [if_neg ((not_assigns_iff_of_bindPair given).mp other)]⟩

variable {bindings : Bindings} {others : List String}

theorem LastAssigns.exists_mem (last : LastAssigns pairs name value) :
    ∃ pair ∈ pairs, Assigns pair name value := by
  obtain ⟨before, pair, after, rfl, assigns, _⟩ := last
  exact ⟨pair, by simp, assigns⟩

/-- If any text gives a value for a name, there is a last one that does. -/
theorem exists_lastAssigns (mem : pair ∈ pairs) (assigns : Assigns pair name value) :
    ∃ v, LastAssigns pairs name v := by
  induction pairs generalizing pair value with
  | nil => cases mem
  | cons first pairs ih =>
      simp only [lastAssigns_cons]
      by_cases again : ∃ other ∈ pairs, ∃ v, Assigns other name v
      · obtain ⟨other, mem, v, assigns⟩ := again
        obtain ⟨v, last⟩ := ih mem assigns
        exact ⟨v, .inl last⟩
      · push Not at again
        rcases List.mem_cons.mp mem with rfl | mem
        · exact ⟨value, .inr ⟨assigns, again⟩⟩
        · exact absurd assigns (again pair mem value)

theorem find?_of_bindPairs (bound : bindPairs c pairs = .ok bindings) :
    bindings.find? name = some l ↔
      ∃ value, LastAssigns pairs name value ∧ Takes c name value l := by
  rw [find?_of_bindPairsFrom bound]
  simp

/-- The names that are bound are those for which a value is given. -/
theorem mem_keys_of_bindPairs (bound : bindPairs c pairs = .ok bindings) :
    name ∈ bindings.keys ↔ ∃ pair ∈ pairs, ∃ value, Assigns pair name value := by
  have accepted := (exists_bindPairsFrom_iff .empty).mp ⟨bindings, bound⟩
  rw [NameMap.keys, ← lookup?_isSome, Option.isSome_iff_exists]
  constructor
  · rintro ⟨l, found⟩
    obtain ⟨value, last, _⟩ := (find?_of_bindPairs bound).mp found
    obtain ⟨pair, mem, assigns⟩ := last.exists_mem
    exact ⟨pair, mem, value, assigns⟩
  · rintro ⟨pair, mem, value, assigns⟩
    obtain ⟨value, last⟩ := exists_lastAssigns mem assigns
    obtain ⟨pair, mem, assigns⟩ := last.exists_mem
    obtain ⟨_, _, l, assigns', takes⟩ := accepted pair mem
    obtain ⟨rfl, rfl⟩ := assigns.unique assigns'
    exact ⟨l, (find?_of_bindPairs bound).mpr ⟨value, last, takes⟩⟩

/-! ## The order of the texts -/

/-- The texts do not give values for one and the same name. -/
def NamesApart (pair other : String) : Prop :=
  ∀ name v w, Assigns pair name v → ¬ Assigns other name w

/-- If no name is given twice, every value is the last one for its name. -/
theorem lastAssigns_of_namesApart (apart : pairs.Pairwise NamesApart) :
    LastAssigns pairs name value ↔ ∃ pair ∈ pairs, Assigns pair name value := by
  refine ⟨LastAssigns.exists_mem, ?_⟩
  rintro ⟨pair, mem, assigns⟩
  obtain ⟨before, after, rfl⟩ := List.append_of_mem mem
  obtain ⟨_, behind, _⟩ := List.pairwise_append.mp apart
  refine ⟨before, pair, after, rfl, assigns, fun later mem v => ?_⟩
  exact List.rel_of_pairwise_cons behind mem name value v assigns

/-- Texts for different names give the same bindings in any order, or none in any order. -/
theorem bindPairs_perm (apart : pairs.Pairwise NamesApart) (perm : others.Perm pairs) :
    (bindPairs c others).toOption = (bindPairs c pairs).toOption := by
  have apart' : others.Pairwise NamesApart :=
    (perm.pairwise_iff fun ab name v w assigns other => ab name w v other assigns).mpr apart
  have succeeds : (∃ bindings, bindPairs c others = .ok bindings) ↔
      ∃ bindings, bindPairs c pairs = .ok bindings := by
    rw [bindPairs, bindPairs, exists_bindPairsFrom_iff, exists_bindPairsFrom_iff]
    simp only [perm.mem_iff]
  cases left : bindPairs c others with
  | error failure =>
      cases right : bindPairs c pairs with
      | error failure => rfl
      | ok bindings =>
          obtain ⟨_, other⟩ := succeeds.mpr ⟨bindings, right⟩
          rw [left] at other
          cases other
  | ok bindings =>
      obtain ⟨bindings', right⟩ := succeeds.mp ⟨bindings, left⟩
      have same : bindings = bindings' := by
        refine NameMap.ext_find? fun name => Option.ext fun l => ?_
        rw [find?_of_bindPairs left, find?_of_bindPairs right]
        simp only [lastAssigns_of_namesApart apart, lastAssigns_of_namesApart apart', perm.mem_iff]
      rw [right, same]

/-! ## All together -/

/--
Texts give bindings exactly if each of them gives a value that can be taken. The bindings are for
the names that are given and no others, each with what its last value is taken for. If no name is
given twice, the order of the texts does not matter. If nothing is missing from the bindings, no
required parameter is left open in the query that they give.
-/
theorem bindPairs_lastAssigned (c : Configuration) (pairs : List String) :
    ((∃ bindings, bindPairs c pairs = .ok bindings) ↔
      ∀ pair ∈ pairs, ∃ name value l, Assigns pair name value ∧ Takes c name value l) ∧
    (∀ bindings, bindPairs c pairs = .ok bindings →
      (∀ name, name ∈ bindings.keys ↔ ∃ pair ∈ pairs, ∃ value, Assigns pair name value) ∧
      (∀ name l, bindings.find? name = some l ↔
        ∃ value, LastAssigns pairs name value ∧ Takes c name value l) ∧
      (c.missingParameters bindings = [] →
        ∀ settings q, c.compile settings bindings = .ok q →
          ∀ name p, c.parameters.find? name = some p → p.required = true → name ∉ q.unresolved)) ∧
    (pairs.Pairwise NamesApart → ∀ others : List String, others.Perm pairs →
      (bindPairs c others).toOption = (bindPairs c pairs).toOption) := by
  refine ⟨exists_bindPairsFrom_iff .empty, fun bindings bound => ⟨?_, ?_, ?_⟩, ?_⟩
  · exact fun name => mem_keys_of_bindPairs bound
  · exact fun name l => find?_of_bindPairs bound
  · intro nothing settings q compiled name p found required
    exact Configuration.not_mem_unresolved_of_required compiled nothing found required
  · exact fun apart others perm => bindPairs_perm apart perm

/-- The first day twice, once with a blank before the sign, and a period with a sign in it. -/
def firstDayTwice : List String := ["from=2024-01-01", "from =2024-02-01", "grain=year=month"]

/-- The later day, and all that stands behind the first sign. -/
def laterDay : Bindings :=
  (NameMap.empty.insert "from" (.date ⟨2024, 2, 1, by decide⟩)).insert "grain"
    (.string "year=month")

/-- They are bound to the later day, and nothing that is required is left open. -/
theorem bindPairs_lastAssigned_firstDayTwice :
    bindPairs totalsByPeriod firstDayTwice = .ok laterDay ∧
      LastAssigns firstDayTwice "from" "2024-02-01" ∧
      laterDay.find? "from" = some (.date ⟨2024, 2, 1, by decide⟩) ∧
      totalsByPeriod.missingParameters laterDay = [] ∧
      ∃ q, totalsByPeriod.compile .default laterDay = .ok q ∧ "from" ∉ q.unresolved := by
  have bound : bindPairs totalsByPeriod firstDayTwice = .ok laterDay := rfl
  have nothing : totalsByPeriod.missingParameters laterDay = [] := rfl
  have compiled := Configuration.compile_of_valid totalsByPeriod_valid .default laterDay
  obtain ⟨_, spec, _⟩ := bindPairs_lastAssigned totalsByPeriod firstDayTwice
  obtain ⟨_, values, required⟩ := spec laterDay bound
  have last : LastAssigns firstDayTwice "from" "2024-02-01" := by
    have period : Assigns "grain=year=month" "grain" "year=month" := ⟨"grain", by decide, rfl, rfl⟩
    refine ⟨["from=2024-01-01"], "from =2024-02-01", ["grain=year=month"], rfl,
      ⟨"from ", by decide, rfl, rfl⟩, fun later mem v other => ?_⟩
    rw [List.mem_singleton.mp mem] at other
    exact absurd (period.unique other).1 (by decide)
  refine ⟨bound, last, ?_, nothing, _, compiled, required nothing _ _ compiled "from" _ rfl rfl⟩
  exact (values _ _).mpr ⟨"2024-02-01", last, .declared rfl nofun rfl⟩

end RuleQuery.Command
