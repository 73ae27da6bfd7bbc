/-
# Which name is suggested

For a name that is not declared, the closest of the declared names is suggested if it is close
enough: two characters off at most, three for longer names, none for short ones. Of several names
that are equally close the first one counts.

The names that are too far away are sorted out first, and the search for the first of the closest
ones does not notice: whatever was sorted out is further away than what is left. In the error of a
configuration the declared names are those of its parameters. A name that is reported there is not
one of them, so that at no distance at all there is nothing to suggest.
-/

import RuleQuery.Configuration.Validity
import RuleQuery.Proofs.EditDistance
import RuleQuery.Proofs.NameMap

namespace RuleQuery

namespace Suggestion

/-! ## The first of the least -/

section FirstLeast

variable {α : Type} {score : α → Nat} {as : List α} {a b : α}

/-- No element of the list has a lower score, and of those with the same score it is the first. -/
def FirstLeast (score : α → Nat) (as : List α) (a : α) : Prop :=
  ∃ before after, as = before ++ a :: after ∧ (∀ b ∈ before, score a < score b) ∧
    ∀ b ∈ after, score a ≤ score b

theorem not_firstLeast_nil : ¬ FirstLeast score [] a := by
  rintro ⟨before, after, split, _⟩
  simp at split

/-- The first element, if none is lower, or else the first of the least of the others. -/
theorem firstLeast_cons : FirstLeast score (b :: as) a ↔
    (b = a ∧ ∀ c ∈ as, score a ≤ score c) ∨ (score a < score b ∧ FirstLeast score as a) := by
  constructor
  · rintro ⟨_ | ⟨c, before⟩, after, split, lower, least⟩
    · obtain ⟨rfl, rfl⟩ := List.cons.inj split
      exact .inl ⟨rfl, least⟩
    · obtain ⟨rfl, rfl⟩ := List.cons.inj split
      obtain ⟨first, lower⟩ := List.forall_mem_cons.mp lower
      exact .inr ⟨first, before, after, rfl, lower, least⟩
  · rintro (⟨rfl, least⟩ | ⟨first, before, after, rfl, lower, least⟩)
    · exact ⟨[], as, rfl, nofun, least⟩
    · exact ⟨b :: before, after, rfl, List.forall_mem_cons.mpr ⟨first, lower⟩, least⟩

theorem FirstLeast.mem (first : FirstLeast score as a) : a ∈ as := by
  obtain ⟨before, after, rfl, _⟩ := first
  simp

theorem FirstLeast.le (first : FirstLeast score as a) : ∀ b ∈ as, score a ≤ score b := by
  induction as with
  | nil => exact absurd first not_firstLeast_nil
  | cons c as ih =>
      rcases firstLeast_cons.mp first with ⟨rfl, least⟩ | ⟨lower, later⟩
      · exact List.forall_mem_cons.mpr ⟨Nat.le_refl _, least⟩
      · exact List.forall_mem_cons.mpr ⟨Nat.le_of_lt lower, ih later⟩

theorem firstLeast_map {β : Type} {f : β → α} {bs : List β} :
    FirstLeast score (bs.map f) a ↔ ∃ b, f b = a ∧ FirstLeast (fun b => score (f b)) bs b := by
  induction bs with
  | nil => simp [not_firstLeast_nil]
  | cons c bs ih =>
      simp only [List.map_cons, firstLeast_cons, List.forall_mem_map, ih]
      constructor
      · rintro (⟨rfl, least⟩ | ⟨lower, b, rfl, first⟩)
        · exact ⟨c, rfl, .inl ⟨rfl, least⟩⟩
        · exact ⟨b, rfl, .inr ⟨lower, first⟩⟩
      · rintro ⟨b, rfl, ⟨rfl, least⟩ | ⟨lower, first⟩⟩
        · exact .inl ⟨rfl, least⟩
        · exact .inr ⟨lower, b, rfl, first⟩

/-- An element within the bound is least as soon as it is least among those within the bound. -/
theorem forall_mem_filter_le_iff {bound : Nat} (le : score a ≤ bound) :
    (∀ b ∈ as.filter fun b => score b ≤ bound, score a ≤ score b) ↔
      ∀ b ∈ as, score a ≤ score b := by
  refine ⟨fun least b mem => ?_, fun least b mem => least b (List.mem_filter.mp mem).1⟩
  by_cases kept : score b ≤ bound
  · exact least b (List.mem_filter.mpr ⟨mem, by simpa using kept⟩)
  · omega

/-- Leaving out what is above a bound does not change which one it is, if it is within the bound. -/
theorem firstLeast_filter {bound : Nat} :
    FirstLeast score (as.filter fun b => score b ≤ bound) a ↔
      FirstLeast score as a ∧ score a ≤ bound := by
  induction as with
  | nil => simp [not_firstLeast_nil]
  | cons c as ih =>
      by_cases low : score c ≤ bound
      · rw [List.filter_cons_of_pos (by simpa using low), firstLeast_cons, firstLeast_cons, ih]
        constructor
        · rintro (⟨rfl, least⟩ | ⟨lower, first, le⟩)
          · exact ⟨.inl ⟨rfl, (forall_mem_filter_le_iff low).mp least⟩, low⟩
          · exact ⟨.inr ⟨lower, first⟩, le⟩
        · rintro ⟨⟨rfl, least⟩ | ⟨lower, first⟩, le⟩
          · exact .inl ⟨rfl, (forall_mem_filter_le_iff low).mpr least⟩
          · exact .inr ⟨lower, first, le⟩
      · rw [List.filter_cons_of_neg (by simpa using low), firstLeast_cons, ih]
        constructor
        · rintro ⟨first, le⟩
          exact ⟨.inr ⟨by omega, first⟩, le⟩
        · rintro ⟨⟨rfl, _⟩ | ⟨_, first⟩, le⟩
          · exact absurd le low
          · exact ⟨first, le⟩

end FirstLeast

/-! ## The search -/

/-- How far a name is from another. -/
def gap (name other : String) : Nat := EditDistance.distance name.toList other.toList

/-- Close enough to be suggested. For a name of one or two characters only the name itself is. -/
def IsNear (name other : String) : Prop :=
  gap name other = 0 ∨ (2 < name.length ∧ gap name other ≤ 2) ∨
    (5 < name.length ∧ gap name other ≤ 3)

variable {name s : String} {declared : List String}

theorem isNear_iff : IsNear name s ↔ gap name s ≤ budget name.length := by
  unfold IsNear budget
  split
  · omega
  · split <;> omega

/-- Only the name itself is at no distance from it. -/
theorem gap_eq_zero_iff : gap name s = 0 ↔ name = s := by
  rw [gap, EditDistance.distance_eq_zero_iff, String.toList_inj]

theorem closest?_eq_none_iff {xs : List (Nat × String)} : closest? xs = none ↔ xs = [] := by
  cases xs with
  | nil => simp [closest?]
  | cons x xs =>
      rw [closest?]
      split
      · simp
      · split <;> simp

/-- Among names with their distances, the first of the closest ones is found. -/
theorem closest?_eq_some_iff {xs : List (Nat × String)} {x : Nat × String} :
    closest? xs = some x ↔ FirstLeast Prod.fst xs x := by
  induction xs generalizing x with
  | nil => simp [closest?, not_firstLeast_nil]
  | cons z xs ih =>
      rw [closest?, firstLeast_cons]
      cases later : closest? xs with
      | none =>
          obtain rfl := closest?_eq_none_iff.mp later
          simp [not_firstLeast_nil]
      | some y =>
          have first : FirstLeast Prod.fst xs y := ih.mp later
          rw [← ih, later, Option.some.injEq]
          dsimp only
          by_cases less : y.1 < z.1
          · rw [if_pos less, Option.some.injEq]
            refine ⟨fun same => .inr ⟨same ▸ less, same⟩, ?_⟩
            rintro (⟨rfl, least⟩ | ⟨_, same⟩)
            · exact absurd less (Nat.not_lt_of_le (least y first.mem))
            · exact same
          · rw [if_neg less, Option.some.injEq]
            refine ⟨fun same => .inl ⟨same, fun c mem => ?_⟩, ?_⟩
            · have := first.le c mem
              rw [← same]
              omega
            · rintro (⟨same, _⟩ | ⟨lower, rfl⟩)
              · exact same
              · exact absurd lower less

/-- The candidates are the names that are near enough, each with its distance. -/
theorem find?_eq (name : String) (declared : List String) :
    find? name declared = (closest? ((declared.filter fun d => gap name d ≤ budget name.length).map
      fun d => (gap name d, d))).map Prod.snd := by
  rw [find?, List.filter_map]
  rfl

theorem find?_eq_some_iff :
    find? name declared = some s ↔ FirstLeast (gap name) declared s ∧ IsNear name s := by
  rw [find?_eq, isNear_iff, ← firstLeast_filter, Option.map_eq_some_iff]
  simp only [closest?_eq_some_iff, firstLeast_map]
  constructor
  · rintro ⟨x, ⟨d, rfl, first⟩, rfl⟩
    exact first
  · intro first
    exact ⟨(gap name s, s), ⟨s, rfl, first⟩, rfl⟩

theorem find?_eq_none_iff : find? name declared = none ↔ ∀ d ∈ declared, ¬ IsNear name d := by
  rw [find?_eq, Option.map_eq_none_iff, closest?_eq_none_iff, List.map_eq_nil_iff,
    List.filter_eq_nil_iff]
  simp only [isNear_iff, decide_eq_true_eq]

end Suggestion

namespace Configuration

variable {c : Configuration} {name : String} {suggestion : Option String}

/-- An undeclared parameter is reported with the suggestion for it among those that are declared. -/
theorem of_validate_undeclared
    (refused : c.validate = .error (.referential (.undeclaredParameter name suggestion))) :
    c.parameters.contains name = false ∧
      suggestion = Suggestion.find? name c.parameters.keys := by
  rw [validate] at refused
  split at refused
  · cases refused
  · split at refused
    next fault found =>
      cases refused
      rw [referenceFault?] at found
      split at found
      · cases found
      · split at found
        · cases found
        · obtain ⟨free, undeclared, same⟩ := Option.map_eq_some_iff.mp found
          cases same
          exact ⟨by simpa using List.find?_some undeclared, rfl⟩
    · cases refused

end Configuration

/--
The suggestion for a name is the first of the closest of the declared names if that one is near, and
there is none if none of them is; how far two names are apart is the least number of edits between
them. What the error of a configuration suggests is therefore a declared parameter and another name
than the one reported; no declared parameter is closer; and for a name of one or two characters
there is no suggestion.
-/
theorem Suggestion.find?_closest (name : String) (declared : List String) :
    (∀ a b : String, IsLeast {n | EditDistance.Edits n a.toList b.toList} (gap a b)) ∧
    (∀ s, find? name declared = some s ↔ FirstLeast (gap name) declared s ∧ IsNear name s) ∧
    (find? name declared = none ↔ ∀ d ∈ declared, ¬ IsNear name d) ∧
    ∀ (c : Configuration) (suggestion : Option String),
      c.validate = .error (.referential (.undeclaredParameter name suggestion)) →
        suggestion = find? name c.parameters.keys ∧ c.parameters.contains name = false ∧
        ∀ s, suggestion = some s → c.parameters.contains s = true ∧ s ≠ name ∧ 2 < name.length ∧
          ∀ d, c.parameters.contains d = true → gap name s ≤ gap name d := by
  refine ⟨fun a b => EditDistance.isLeast_distance a.toList b.toList,
    fun s => find?_eq_some_iff, find?_eq_none_iff, fun c suggestion refused => ?_⟩
  obtain ⟨undeclared, given⟩ := Configuration.of_validate_undeclared refused
  refine ⟨given, undeclared, fun s same => ?_⟩
  obtain ⟨first, near⟩ := find?_eq_some_iff.mp (given.symm.trans same)
  have declares (d : String) : c.parameters.contains d = true ↔ d ∈ c.parameters.keys :=
    lookup?_isSome d c.parameters.entries
  have declared : c.parameters.contains s = true := (declares s).mpr first.mem
  have other : s ≠ name := by
    rintro rfl
    simp [undeclared] at declared
  refine ⟨declared, other, ?_, fun d mem => first.le d ((declares d).mp mem)⟩
  -- At no distance there is only the name itself.
  have apart : gap name s ≠ 0 := fun zero => other (gap_eq_zero_iff.mp zero).symm
  rcases near with zero | ⟨long, _⟩ | ⟨long, _⟩
  · exact absurd zero apart
  · exact long
  · exact Nat.lt_trans (by decide) long

/-- Transactions from a day on, with the parameter for the day misspelt. -/
def misspeltStart : Configuration :=
  (((Configuration.start ⟨[⟨.raw "id", none⟩]⟩ ⟨"transactions", none⟩).withWhere
    (.condition ⟨.column "created_at", .greaterEqual,
      .scalar (.string (Name.placeholder "strat_date"))⟩)).withParameter
        "end_date" (.ofRequired .date)).withParameter "start_date" (.ofRequired .date)

/-- Two characters are swapped, which takes two edits. The parameter that was meant is suggested. -/
theorem find?_closest_misspeltStart :
    misspeltStart.validate =
        .error (.referential (.undeclaredParameter "strat_date" (some "start_date"))) ∧
      Suggestion.FirstLeast (Suggestion.gap "strat_date") misspeltStart.parameters.keys
        "start_date" ∧
      Suggestion.gap "strat_date" "start_date" = 2 ∧
      ∀ d, misspeltStart.parameters.contains d = true →
        Suggestion.gap "strat_date" "start_date" ≤ Suggestion.gap "strat_date" d := by
  have refused : misspeltStart.validate =
      .error (.referential (.undeclaredParameter "strat_date" (some "start_date"))) := rfl
  obtain ⟨_, closest, _, reported⟩ :=
    Suggestion.find?_closest "strat_date" misspeltStart.parameters.keys
  obtain ⟨given, _, least⟩ := reported misspeltStart _ refused
  obtain ⟨first, _⟩ := (closest "start_date").mp given.symm
  exact ⟨refused, first, by decide +kernel, (least _ rfl).2.2.2⟩

end RuleQuery
