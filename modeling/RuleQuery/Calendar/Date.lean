/-
# Calendar dates

Dates of the proleptic Gregorian calendar, with a year zero and years before it. A `Date` carries
the proof that its fields name a day that exists, so no later check is needed. A date is written
with a year of four digits, or, outside the years 0 to 9999, with a sign and at least four digits.
-/

import RuleQuery.Number.Digits

namespace RuleQuery.Calendar

open RuleQuery.Number

/-- Every fourth year, except the centuries not divisible by 400. -/
def isLeapYear (year : Int) : Bool :=
  year % 4 = 0 && (year % 100 ≠ 0 || year % 400 = 0)

/-- The number of days in a month. -/
def daysIn (year : Int) (month : Nat) : Nat :=
  match month with
  | 2 => if isLeapYear year then 29 else 28
  | 4 | 6 | 9 | 11 => 30
  | _ => 31

/-- The fields of a day that exists, in the range of years that is kept. -/
def IsDay (year : Int) (month day : Nat) : Prop :=
  (-262143 ≤ year ∧ year ≤ 262142) ∧ (1 ≤ month ∧ month ≤ 12) ∧
    (1 ≤ day ∧ day ≤ daysIn year month)

instance (year : Int) (month day : Nat) : Decidable (IsDay year month day) := by
  unfold IsDay; infer_instance

/-- A day of the calendar. -/
structure Date where
  year : Int
  month : Nat
  day : Nat
  isDay : IsDay year month day
  deriving DecidableEq

namespace Date

/-- The date with these fields, if there is one. -/
def ofFields? (year : Int) (month day : Nat) : Option Date :=
  if h : IsDay year month day then some ⟨year, month, day, h⟩ else none

/-- The following day; there is none after the last year. -/
def next? (d : Date) : Option Date :=
  if d.day < daysIn d.year d.month then ofFields? d.year d.month (d.day + 1)
  else if d.month < 12 then ofFields? d.year (d.month + 1) 1
  else ofFields? (d.year + 1) 1 1

/-- The preceding day; there is none before the first year. -/
def previous? (d : Date) : Option Date :=
  if 1 < d.day then ofFields? d.year d.month (d.day - 1)
  else if 1 < d.month then ofFields? d.year (d.month - 1) (daysIn d.year (d.month - 1))
  else ofFields? (d.year - 1) 12 31

/-- The text of a year. -/
def yearText (year : Int) : List Char :=
  if 0 ≤ year && year ≤ 9999 then padded 4 year.toNat
  else (if year < 0 then '-' else '+') :: padded 4 year.natAbs

/-- The text of a date, `YYYY-MM-DD`. -/
def text (d : Date) : List Char :=
  yearText d.year ++ '-' :: padded 2 d.month ++ '-' :: padded 2 d.day

/-- The fields of a date give it back. -/
theorem ofFields?_fields (d : Date) : ofFields? d.year d.month d.day = some d := by
  simp [ofFields?, d.isDay]

end Date

end RuleQuery.Calendar
