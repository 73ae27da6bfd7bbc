/-
# The edit distance is the least number of edits

An edit inserts, deletes or replaces one character at any place of a text. The distance that is
computed row by row is the length of a shortest sequence of edits from one text to the other.

A row holds the distances to all end pieces of a text, so it can be taken apart, and what is left
are three equations between distances. They spell out a sequence of edits of just that length. That
none is shorter comes from what a single edit can do: it changes the distance to any text by at most
one, however far from the front it is made.
-/

import Mathlib.Order.Bounds.Defs
import RuleQuery.EditDistance

namespace RuleQuery.EditDistance

/-- One character inserted, deleted or replaced. -/
inductive Edit : List Char → List Char → Prop
  | insert (front back : List Char) (c : Char) : Edit (front ++ back) (front ++ c :: back)
  | delete (front back : List Char) (c : Char) : Edit (front ++ c :: back) (front ++ back)
  | replace (front back : List Char) (c d : Char) :
      Edit (front ++ c :: back) (front ++ d :: back)

/-- So many edits, one after another. -/
inductive Edits : Nat → List Char → List Char → Prop
  | none (a : List Char) : Edits 0 a a
  | step {n a b z} (first : Edit a b) (later : Edits n b z) : Edits (n + 1) a z

variable {a b : List Char} {n : Nat}

/-! ## Equations -/

theorem distance_nil (b : List Char) : distance [] b = b.length := by
  cases b <;> rfl

/-- The row of a text goes on with the row of its end piece. -/
theorem tail_row (d : Char) (b a : List Char) : (row (d :: b) a).tail = row b a := by
  induction a with
  | nil => rfl
  | cons c a ih => rw [row, row, nextRow, List.tail_cons, ih]

theorem distance_cons_nil (c : Char) (a : List Char) : distance (c :: a) [] = distance a [] + 1 :=
  rfl

theorem distance_cons_cons (c d : Char) (a b : List Char) :
    distance (c :: a) (d :: b) = min (distance a b + if c = d then 0 else 1)
      (min (distance a (d :: b) + 1) (distance (c :: a) b + 1)) := by
  rw [distance, row, nextRow, tail_row, List.headD_cons]
  rfl

/-! ## A sequence of that length -/

theorem Edit.cons (edit : Edit a b) (c : Char) : Edit (c :: a) (c :: b) := by
  cases edit with
  | insert front back d => exact .insert (c :: front) back d
  | delete front back d => exact .delete (c :: front) back d
  | replace front back d e => exact .replace (c :: front) back d e

/-- Edits may be made behind a character. -/
theorem Edits.cons (edits : Edits n a b) (c : Char) : Edits n (c :: a) (c :: b) := by
  induction edits with
  | none a => exact .none (c :: a)
  | step first _ ih => exact .step (first.cons c) ih

theorem Edits.insert (edits : Edits n a b) (d : Char) : Edits (n + 1) a (d :: b) :=
  .step (.insert [] a d) (edits.cons d)

theorem Edits.delete (edits : Edits n a b) (c : Char) : Edits (n + 1) (c :: a) b :=
  .step (.delete [] a c) edits

theorem Edits.replace (edits : Edits n a b) (c d : Char) :
    Edits (n + if c = d then 0 else 1) (c :: a) (d :: b) := by
  by_cases same : c = d
  · rw [if_pos same, same]
    exact edits.cons d
  · rw [if_neg same]
    exact .step (.replace [] a c d) (edits.cons d)

/-- The shorter one of two sequences of edits. -/
theorem Edits.min {m : Nat} (edits : Edits m a b) (others : Edits n a b) :
    Edits (Min.min m n) a b := by
  rcases Nat.le_total m n with le | le
  · rwa [Nat.min_eq_left le]
  · rwa [Nat.min_eq_right le]

/-- As many edits as the distance lead from one text to the other. -/
theorem edits_distance (a b : List Char) : Edits (distance a b) a b := by
  induction a generalizing b with
  | nil =>
      induction b with
      | nil => exact .none []
      | cons d b ih => simpa [distance_nil] using ih.insert d
  | cons c a shorter =>
      induction b with
      | nil => exact (shorter []).delete c
      | cons d b ih =>
          rw [distance_cons_cons]
          exact ((shorter b).replace c d).min (((shorter (d :: b)).delete c).min (ih.insert d))

/-! ## No sequence is shorter -/

/-- A further character in front of the second text takes one more edit at most. -/
theorem distance_right_cons_le (a b : List Char) (d : Char) :
    distance a (d :: b) ≤ distance a b + 1 := by
  cases a with
  | nil => simp [distance_nil]
  | cons c a =>
      rw [distance_cons_cons]
      omega

theorem distance_cons_le (c : Char) (a b : List Char) :
    distance (c :: a) b ≤ distance a b + 1 := by
  cases b with
  | nil => exact Nat.le_refl _
  | cons d b =>
      rw [distance_cons_cons]
      omega

theorem distance_le_cons (c : Char) (a b : List Char) :
    distance a b ≤ distance (c :: a) b + 1 := by
  induction b with
  | nil =>
      rw [distance_cons_nil]
      omega
  | cons d b ih =>
      have right := distance_right_cons_le a b d
      rw [distance_cons_cons]
      omega

theorem distance_replace_le (c d : Char) (a b : List Char) :
    distance (c :: a) b ≤ distance (d :: a) b + 1 := by
  induction b with
  | nil =>
      rw [distance_cons_nil, distance_cons_nil]
      omega
  | cons e b ih =>
      rw [distance_cons_cons, distance_cons_cons]
      split <;> split <;> omega

/-- A character in front of two texts does not let their distances differ by more. -/
theorem distance_cons_le_cons {a' : List Char} (near : ∀ b, distance a b ≤ distance a' b + 1)
    (c : Char) (b : List Char) : distance (c :: a) b ≤ distance (c :: a') b + 1 := by
  induction b with
  | nil =>
      have := near []
      rw [distance_cons_nil, distance_cons_nil]
      omega
  | cons d b ih =>
      have shorter := near b
      have whole := near (d :: b)
      rw [distance_cons_cons, distance_cons_cons]
      omega

/-- One edit brings a text closer to another by one at most. -/
theorem Edit.distance_le (edit : Edit a b) (z : List Char) : distance a z ≤ distance b z + 1 := by
  have behind {a b : List Char} (near : ∀ z, distance a z ≤ distance b z + 1)
      (front z : List Char) : distance (front ++ a) z ≤ distance (front ++ b) z + 1 := by
    induction front generalizing z with
    | nil => exact near z
    | cons e front ih => exact distance_cons_le_cons ih e z
  cases edit with
  | insert front back c => exact behind (distance_le_cons c back) front z
  | delete front back c => exact behind (distance_cons_le c back) front z
  | replace front back c d => exact behind (distance_replace_le c d back) front z

theorem distance_self (a : List Char) : distance a a = 0 := by
  induction a with
  | nil => rfl
  | cons c a ih => simp [distance_cons_cons, ih]

/-- There are no fewer edits between two texts than their distance. -/
theorem Edits.distance_le (edits : Edits n a b) : distance a b ≤ n := by
  induction edits with
  | none a => exact Nat.le_of_eq (distance_self a)
  | step first _ ih => exact Nat.le_trans (first.distance_le _) (Nat.add_le_add_right ih 1)

theorem isLeast_distance (a b : List Char) : IsLeast {n | Edits n a b} (distance a b) :=
  ⟨edits_distance a b, fun _ edits => edits.distance_le⟩

/-- Only equal texts are at no distance. -/
theorem distance_eq_zero_iff : distance a b = 0 ↔ a = b := by
  constructor
  · intro zero
    have edits := edits_distance a b
    rw [zero] at edits
    cases edits
    rfl
  · rintro rfl
    exact distance_self a

end RuleQuery.EditDistance
