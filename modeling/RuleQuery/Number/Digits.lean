/-
# Decimal digits

Reading and writing runs of ASCII digits. Natural numbers are written in base ten without leading
zeros; a run that is read may have any number of them.
-/

namespace RuleQuery.Number

/-- The digits of a natural number, most significant first. -/
def digits (n : Nat) : List Char :=
  Nat.toDigits 10 n

/-- The value of a run of digits. -/
def value (ds : List Char) : Nat :=
  Nat.ofDigitChars 10 ds 0

/-- Writing and reading undo each other. -/
@[simp] theorem value_digits (n : Nat) : value (digits n) = n :=
  Nat.ofDigitChars_toDigits (by decide) (by decide)

theorem isDigit_of_mem_digits {n : Nat} {c : Char} (mem : c ∈ digits n) : c.isDigit = true :=
  Nat.isDigit_of_mem_toDigits (by decide) (by decide) mem

theorem digits_ne_nil (n : Nat) : digits n ≠ [] := Nat.toDigits_ne_nil

/-- A power of ten. -/
abbrev tenTo (n : Nat) : Nat := Nat.pow 10 n

/-- A power of two. -/
abbrev twoTo (n : Nat) : Nat := Nat.pow 2 n

/-- The digits of a number, padded with zeros in front to at least `width` characters. -/
def padded (width n : Nat) : List Char :=
  List.replicate (width - (digits n).length) '0' ++ digits n

/-- The text of an integer: a minus sign for a negative one, then its digits. -/
def integerText (n : Int) : String :=
  String.ofList ((if n < 0 then ['-'] else []) ++ digits n.natAbs)

/-- The longest run of digits in front, and what follows it. -/
def spanDigits (cs : List Char) : List Char × List Char :=
  (cs.takeWhile Char.isDigit, cs.dropWhile Char.isDigit)

/-- A sign in front, if there is one: whether it is a minus, and what follows. -/
def takeSign : List Char → Bool × List Char
  | '-' :: cs => (true, cs)
  | '+' :: cs => (false, cs)
  | cs => (false, cs)

/-- The integers of 64 bits. -/
def isInt64 (n : Int) : Bool :=
  -9223372036854775808 ≤ n && n ≤ 9223372036854775807

theorem isInt64_iff {n : Int} :
    isInt64 n = true ↔ -9223372036854775808 ≤ n ∧ n ≤ 9223372036854775807 := by
  rw [isInt64, Bool.and_eq_true, decide_eq_true_eq, decide_eq_true_eq]

theorem isInt64_toInt (n : Int64) : isInt64 n.toInt = true := by
  have least := n.le_toInt
  have greatest := n.toInt_lt
  rw [isInt64_iff]
  omega

/-- The natural numbers of 64 bits. -/
def isNat64 (n : Int) : Bool :=
  0 ≤ n && n ≤ 18446744073709551615

theorem isNat64_iff {n : Int} : isNat64 n = true ↔ 0 ≤ n ∧ n ≤ 18446744073709551615 := by
  rw [isNat64, Bool.and_eq_true, decide_eq_true_eq, decide_eq_true_eq]

/-- Read a whole text as an integer of 64 bits: an optional sign and ASCII digits, no blanks. -/
def readInt64? (s : String) : Option Int64 :=
  let (negative, ds) := takeSign s.toList
  if ds.isEmpty || !ds.all Char.isDigit then none
  else
    let n : Int := if negative then -(value ds : Int) else value ds
    if isInt64 n then some (Int64.ofInt n) else none

theorem takeSign_integerText (n : Int) :
    takeSign (integerText n).toList = (decide (n < 0), digits n.natAbs) := by
  rw [integerText, String.toList_ofList]
  by_cases negative : n < 0
  · simp [negative, takeSign]
  · obtain ⟨d, ds, cut⟩ := List.exists_cons_of_ne_nil (digits_ne_nil n.natAbs)
    have first : d.isDigit = true := isDigit_of_mem_digits (cut ▸ List.mem_cons_self)
    rw [if_neg negative, cut, decide_eq_false negative, List.nil_append]
    unfold takeSign
    -- A digit is neither of the signs.
    split
    · simp_all
    · simp_all
    · rfl

/-- An integer is read back from its text. -/
theorem readInt64?_integerText (n : Int64) :
    readInt64? (integerText n.toInt) = some n := by
  have whole : (if decide (n.toInt < 0) then -(value (digits n.toInt.natAbs) : Int)
      else value (digits n.toInt.natAbs)) = n.toInt := by
    rw [value_digits]
    split
    · next negative =>
        have := of_decide_eq_true negative
        omega
    · next nonneg =>
        have : ¬ n.toInt < 0 := fun negative => nonneg (decide_eq_true negative)
        omega
  have digit : ∀ c ∈ digits n.toInt.natAbs, c.isDigit = true := fun _ => isDigit_of_mem_digits
  simp only [readInt64?, takeSign_integerText, whole, isInt64_toInt n]
  simpa [digits_ne_nil] using digit

end RuleQuery.Number
