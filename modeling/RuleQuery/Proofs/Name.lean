/-
# The characters of names

A name holds parts and points only. A function is written in upper case. Its name stays an
identifier, so nothing can enter a statement by way of the change of case.
-/

import RuleQuery.Name
import RuleQuery.Text.Letters

namespace RuleQuery.Name

theorem isPart_of_isDigit {c : Char} (digit : c.isDigit = true) : isPart c = true := by
  simp [isPart, Char.isAlphanum, digit]

theorem isPart_of_isStart {c : Char} (h : isStart c = true) : isPart c = true := by
  simp only [isStart, isPart, Char.isAlphanum, Bool.or_eq_true] at h ⊢
  exact h.imp_left .inl

/-- The characters of a dotted name are parts and points. -/
theorem isDottedPart_of_mem {cs : List Char} (h : isDottedChars cs = true) :
    ∀ c ∈ cs, isDottedPart c = true := by
  cases cs with
  | nil => simp
  | cons c cs =>
      simp only [isDottedChars, Bool.and_eq_true, List.all_eq_true] at h
      intro d mem
      rcases List.mem_cons.mp mem with rfl | mem
      · simp [isDottedPart, isPart_of_isStart h.1]
      · exact h.2 d mem

/-- The characters of an identifier are parts. -/
theorem isPart_of_mem {cs : List Char} (h : isIdentifierChars cs = true) :
    ∀ c ∈ cs, isPart c = true := by
  cases cs with
  | nil => simp
  | cons c cs =>
      simp only [isIdentifierChars, Bool.and_eq_true, List.all_eq_true] at h
      exact List.forall_mem_cons.mpr ⟨isPart_of_isStart h.1, h.2⟩

/-- Upper case moves the lower-case letters by 32 places. -/
theorem toNat_toUpper_of_lower {c : Char} (h : 97 ≤ c.toNat ∧ c.toNat ≤ 122) :
    c.toUpper.toNat = c.toNat - 32 := by
  have lower : 'a'.val ≤ c.val ∧ c.val ≤ 'z'.val := by
    simpa [UInt32.le_iff_toNat_le] using h
  have raised : c.toUpper = ⟨c.val + ('A'.val - 'a'.val), _⟩ := dif_pos lower
  rw [raised, Char.toNat, UInt32.toNat_add]
  show (c.toNat + 4294967264) % 4294967296 = _
  omega

theorem toUpper_of_not_lower {c : Char} (h : ¬ (97 ≤ c.toNat ∧ c.toNat ≤ 122)) :
    c.toUpper = c := by
  have notLower : ¬ ('a'.val ≤ c.val ∧ c.val ≤ 'z'.val) := by
    simpa [UInt32.le_iff_toNat_le] using h
  exact dif_neg notLower

theorem isAlpha_iff_toNat {c : Char} : c.isAlpha = true ↔
    (65 ≤ c.toNat ∧ c.toNat ≤ 90) ∨ (97 ≤ c.toNat ∧ c.toNat ≤ 122) := by
  have letter : c.isAlpha = (decide ('A'.val ≤ c.val ∧ c.val ≤ 'Z'.val) ||
      (decide ('a'.val ≤ c.val) && decide (c.val ≤ 'z'.val))) := rfl
  simp [letter, UInt32.le_iff_toNat_le]

theorem isDigit_of_isStart {c : Char} (start : isStart c = true) : c.isDigit = false := by
  rw [Bool.eq_false_iff, Ne, Char.isDigit_iff_toNat]
  intro range
  have bounds : 48 ≤ c.toNat ∧ c.toNat ≤ 57 := range
  rcases Bool.or_eq_true _ _ |>.mp start with letter | underscore
  · have letters := isAlpha_iff_toNat.mp letter
    omega
  · rw [beq_iff_eq.mp underscore] at bounds
    exact absurd bounds (by decide)

theorem isStart_toUpper {c : Char} (h : isStart c = true) : isStart c.toUpper = true := by
  by_cases lower : 97 ≤ c.toNat ∧ c.toNat ≤ 122
  · have upper : c.toUpper.isAlpha = true := by
      rw [isAlpha_iff_toNat, toNat_toUpper_of_lower lower]
      omega
    simp [isStart, upper]
  · rwa [toUpper_of_not_lower lower]

theorem isPart_toUpper {c : Char} (h : isPart c = true) : isPart c.toUpper = true := by
  by_cases lower : 97 ≤ c.toNat ∧ c.toNat ≤ 122
  · have start : isStart c = true := by
      simp [isStart, isAlpha_iff_toNat.mpr (.inr lower)]
    exact isPart_of_isStart (isStart_toUpper start)
  · rwa [toUpper_of_not_lower lower]

/-- An identifier in upper case is an identifier. -/
theorem isIdentifier_upperAscii {s : String} (h : isIdentifier s = true) :
    isIdentifier (Text.upperAscii s) = true := by
  simp only [isIdentifier, Text.upperAscii, String.toList_ofList] at h ⊢
  cases chars : s.toList with
  | nil => simp [chars, isIdentifierChars] at h
  | cons c cs =>
      simp only [chars, isIdentifierChars, Bool.and_eq_true, List.all_eq_true] at h
      simp only [List.map_cons, isIdentifierChars, Bool.and_eq_true, List.all_map,
        List.all_eq_true]
      exact ⟨isStart_toUpper h.1, fun d mem => isPart_toUpper (h.2 d mem)⟩

theorem toUpper_toUpper (c : Char) : c.toUpper.toUpper = c.toUpper := by
  by_cases lower : 97 ≤ c.toNat ∧ c.toNat ≤ 122
  · refine toUpper_of_not_lower ?_
    rw [toNat_toUpper_of_lower lower]
    omega
  · rw [toUpper_of_not_lower lower, toUpper_of_not_lower lower]

/-- What is in upper case stays as it is. -/
theorem upperAscii_upperAscii (s : String) :
    Text.upperAscii (Text.upperAscii s) = Text.upperAscii s := by
  simp only [Text.upperAscii, String.toList_ofList, List.map_map]
  congr 1
  exact List.map_congr_left fun c _ => toUpper_toUpper c

/-- The three forms of a column reference. -/
theorem columnReference_cases {s : String} (h : isColumnReference s = true) :
    isDottedChars s.toList = true ∨ s.toList = ['*'] ∨
      ∃ q, isDottedChars q = true ∧ s.toList = q ++ ['.', '*'] := by
  unfold isColumnReference at h
  split at h
  next star => exact .inr (.inl (by simpa using congrArg List.reverse star))
  next qualifier split =>
    exact .inr (.inr ⟨qualifier.reverse, h, by simpa using congrArg List.reverse split⟩)
  next => exact .inl (by simpa using h)

/-- Every dotted name is a column reference. -/
theorem isColumnReference_of_isDotted {s : String} (h : isDotted s = true) :
    isColumnReference s = true := by
  have noStar : '*' ∉ s.toList := fun mem => absurd (isDottedPart_of_mem h '*' mem) (by decide)
  rw [← List.mem_reverse] at noStar
  unfold isColumnReference
  split
  next star => simp [star] at noStar
  next split => simp [split] at noStar
  next => rwa [List.reverse_reverse]

/-- A column reference starts with a letter, an underscore or a star. -/
theorem exists_cons_of_isColumnReference {s : String} (h : isColumnReference s = true) :
    ∃ c cs, s.toList = c :: cs ∧ (isStart c = true ∨ c = '*') := by
  have dotted {q : List Char} (front : isDottedChars q = true) (rest : List Char) :
      ∃ c cs, q ++ rest = c :: cs ∧ (isStart c = true ∨ c = '*') := by
    cases q with
    | nil => cases front
    | cons c q => exact ⟨c, q ++ rest, rfl, .inl (Bool.and_eq_true _ _ |>.mp front).1⟩
  rcases columnReference_cases h with whole | star | ⟨q, front, chars⟩
  · simpa using dotted whole []
  · exact ⟨'*', [], star, .inr rfl⟩
  · rw [chars]
    exact dotted front _

theorem toList_placeholder (name : String) :
    (placeholder name).toList = '\x7b' :: '\x7b' :: (name.toList ++ ['\x7d', '\x7d']) := by
  simp [placeholder]

/-- A text that is a placeholder is the placeholder of the name in it. -/
theorem eq_placeholder {s name : String} (h : placeholder? s = some name) :
    s = placeholder name := by
  unfold placeholder? at h
  split at h
  next rest chars =>
    split at h
    next reversed split =>
      split at h
      · cases h
        have inside : rest = reversed.reverse ++ ['\x7d', '\x7d'] := by
          simpa using congrArg List.reverse split
        rw [← String.toList_inj, chars, inside, toList_placeholder, String.toList_ofList]
      · cases h
    · cases h
  · cases h

end RuleQuery.Name
