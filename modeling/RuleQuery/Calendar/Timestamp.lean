/-
# Timestamps

A point in time without a zone: a date and a time of day, down to nanoseconds. A leap second is
kept inside the second 59 before it, with nanoseconds from 1000000000 on, and is written as second
60; it may stand at the end of any minute. Moving a timestamp by whole minutes, as the conversion
from an offset to universal time does, leaves the second and the nanoseconds alone.
-/

import RuleQuery.Calendar.Date

namespace RuleQuery.Calendar

open RuleQuery.Number

/-- The fields of a time of day that exists. -/
def IsTime (hour minute second nanos : Nat) : Prop :=
  hour < 24 ∧ minute < 60 ∧ second < 60 ∧ nanos < 2000000000

instance (hour minute second nanos : Nat) : Decidable (IsTime hour minute second nanos) := by
  unfold IsTime; infer_instance

/-- A date and a time of day. -/
structure Timestamp where
  date : Date
  hour : Nat
  minute : Nat
  second : Nat
  nanos : Nat
  isTime : IsTime hour minute second nanos
  deriving DecidableEq

namespace Timestamp

/-- The timestamp with these fields, if there is one. -/
def ofFields? (date : Date) (hour minute second nanos : Nat) : Option Timestamp :=
  if h : IsTime hour minute second nanos then some ⟨date, hour, minute, second, nanos, h⟩ else none

/-- The same, from a second as it is written, where 60 is a leap second. -/
def ofWritten? (date : Date) (hour minute second nanos : Nat) : Option Timestamp :=
  if second = 60 then ofFields? date hour minute 59 (nanos + 1000000000)
  else ofFields? date hour minute second nanos

/-- The second as it is written. -/
def writtenSecond (t : Timestamp) : Nat :=
  t.second + t.nanos / 1000000000

/-- Midnight at the start of a date. -/
def midnight (date : Date) : Timestamp :=
  ⟨date, 0, 0, 0, 0, by decide⟩

/-- The timestamp some minutes later or earlier, by less than a day. -/
def shift? (t : Timestamp) (minutes : Int) : Option Timestamp :=
  let total : Int := t.hour * 60 + t.minute + minutes
  let date? :=
    if total < 0 then t.date.previous?
    else if total < 1440 then some t.date
    else t.date.next?
  let ofDay := (total % 1440).toNat
  date?.bind fun date => ofFields? date (ofDay / 60) (ofDay % 60) t.second t.nanos

/-- The time of day to the second, `HH:MM:SS`. -/
def clockText (t : Timestamp) : List Char :=
  padded 2 t.hour ++ ':' :: padded 2 t.minute ++ ':' :: padded 2 t.writtenSecond

/-- The text of a timestamp to the second, with a character between date and time. -/
def text (separator : Char) (t : Timestamp) : List Char :=
  t.date.text ++ separator :: t.clockText

/-- The fraction of a second with three, six or nine digits, the fewest that are exact. -/
def fractionText (t : Timestamp) : List Char :=
  let n := t.nanos % 1000000000
  if n = 0 then []
  else if n % 1000000 = 0 then '.' :: padded 3 (n / 1000000)
  else if n % 1000 = 0 then '.' :: padded 6 (n / 1000)
  else '.' :: padded 9 n

/-- The full text of a point in universal time. -/
def instantText (t : Timestamp) : List Char :=
  t.text 'T' ++ t.fractionText ++ ['Z']

/-- The fields of a timestamp give it back. -/
theorem ofFields?_fields (t : Timestamp) :
    ofFields? t.date t.hour t.minute t.second t.nanos = some t := by
  simp [ofFields?, t.isTime]

end Timestamp

end RuleQuery.Calendar
