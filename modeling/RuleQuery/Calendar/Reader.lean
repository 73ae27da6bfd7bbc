/-
# Reading dates and timestamps

There are two ways to read a field. Strictly, a field has a fixed number of digits. Loosely, blanks
may stand before it and it may have fewer digits; a year may then carry a sign, and a signed year
has any number of digits. Each reader takes a list of characters and gives the value read together
with what follows it, so that a format is a chain of such steps.
-/

import RuleQuery.Calendar.Timestamp
import RuleQuery.Text.Blank

namespace RuleQuery.Calendar

open RuleQuery.Number RuleQuery.Text

/-- What reads something at the front of a text. -/
abbrev Scan (α : Type) := List Char → Option (α × List Char)

namespace Scan

/-- A number of at least `least` and at most `most` digits. -/
def number (least most : Nat) : Scan Nat := fun cs =>
  let ds := (cs.take most).takeWhile Char.isDigit
  if ds.length < least then none else some (value ds, cs.drop ds.length)

/-- A given character. -/
def character (c : Char) : Scan Unit
  | [] => none
  | d :: cs => if d = c then some ((), cs) else none

/-- A number of one or two digits, with blanks before it. -/
def field : Scan Nat := fun cs =>
  number 1 2 (dropBlanks cs)

/-- A year with blanks before it. -/
def year : Scan Int := fun cs =>
  match dropBlanks cs with
  | '-' :: cs => (number 1 cs.length cs).map fun (n, rest) => (-(n : Int), rest)
  | '+' :: cs => (number 1 cs.length cs).map fun (n, rest) => ((n : Int), rest)
  | cs => (number 1 4 cs).map fun (n, rest) => ((n : Int), rest)

/-- An optional point with digits after it, as nanoseconds; digits beyond the ninth are dropped. -/
def fraction : Scan Nat
  | '.' :: cs => do
    let (_, rest) ← number 1 9 cs
    let given := cs.length - rest.length
    return (value (cs.take given) * tenTo (9 - given), rest.dropWhile Char.isDigit)
  | cs => some (0, cs)

/-- Year, month and day, read loosely, with blanks allowed before the hyphens if `spaced`. -/
def date (spaced : Bool) : Scan Date := fun cs => do
  let skip := if spaced then dropBlanks else id
  let (y, cs) ← year cs
  let ((), cs) ← character '-' (skip cs)
  let (m, cs) ← field cs
  let ((), cs) ← character '-' (skip cs)
  let (d, cs) ← field cs
  let date ← Date.ofFields? y m d
  return (date, cs)

/-- Hour, minute, second and fraction on a given date, read loosely. -/
def time (spaced : Bool) (date : Date) : Scan Timestamp := fun cs => do
  let skip := if spaced then dropBlanks else id
  let (hour, cs) ← field cs
  let ((), cs) ← character ':' (skip cs)
  let (minute, cs) ← field cs
  let ((), cs) ← character ':' (skip cs)
  let (second, cs) ← field cs
  let (nanos, cs) ← fraction cs
  let stamp ← Timestamp.ofWritten? date hour minute second nanos
  return (stamp, cs)

/-- Date, separator and time with a fixed number of digits in each field. -/
def strict : Scan Timestamp := fun cs => do
  let (y, cs) ← number 4 4 cs
  let ((), cs) ← character '-' cs
  let (m, cs) ← number 2 2 cs
  let ((), cs) ← character '-' cs
  let (d, cs) ← number 2 2 cs
  let cs ← match cs with
    | c :: cs => if c = 'T' || c = 't' || c = ' ' then some cs else none
    | [] => none
  let (hour, cs) ← number 2 2 cs
  let ((), cs) ← character ':' cs
  let (minute, cs) ← number 2 2 cs
  let ((), cs) ← character ':' cs
  let (second, cs) ← number 2 2 cs
  let (nanos, cs) ← fraction cs
  let date ← Date.ofFields? y m d
  let stamp ← Timestamp.ofWritten? date hour minute second nanos
  return (stamp, cs)

/--
An offset from universal time in minutes: the letter `Z`, or a sign (the minus sign may be the
typographic one), two digits of hours below 24, what `between` skips or refuses, and two digits of
minutes below 60.
-/
def offset (between : List Char → Option (List Char)) : Scan Int
  | [] => none
  | c :: cs =>
    if c = 'Z' || c = 'z' then some (0, cs)
    else if c = '+' || c = '-' || c = '\u2212' then do
      let (hours, cs) ← number 2 2 cs
      let cs ← between cs
      let (minutes, cs) ← number 2 2 cs
      if 24 ≤ hours || 60 ≤ minutes then none
      else
        let total : Int := hours * 60 + minutes
        return (if c = '+' then total else -total, cs)
    else none

end Scan

/-- The value of a scan that reads the whole text. -/
def whole {α : Type} : Option (α × List Char) → Option α
  | some (a, []) => some a
  | _ => none

/-- Read a date. -/
def readDate? (s : String) : Option Date :=
  whole (Scan.date false s.toList)

/-- A strict timestamp with an offset, converted to universal time. -/
def readZoned? (cs : List Char) : Option Timestamp := do
  let (stamp, cs) ← Scan.strict cs
  let minutes ← whole (Scan.offset
    (fun cs => (Scan.character ':' cs).map Prod.snd) cs)
  stamp.shift? (-minutes)

/-- A loose timestamp without offset, whose date and time are parted by what `between` skips. -/
def readLocal? (between : List Char → Option (List Char)) (cs : List Char) : Option Timestamp := do
  let (date, cs) ← Scan.date false cs
  let cs ← between cs
  whole (Scan.time false date cs)

/--
Read a timestamp: strictly with an offset, or loosely without one, with a `T` or any amount of
blanks between date and time.
-/
def readTimestamp? (s : String) : Option Timestamp :=
  let cs := s.toList
  readZoned? cs
    <|> readLocal? (fun cs => (Scan.character 'T' cs).map Prod.snd) cs
    <|> readLocal? (fun cs => some (dropBlanks cs)) cs

/--
Read a point in time of a stored record: loosely, with an offset, which may also be written `UTC`
or with colons and blanks, or nothing, between its hours and minutes.
-/
def readInstant? (s : String) : Option Timestamp := do
  let (date, cs) ← Scan.date true s.toList
  let cs ← match cs with
    | c :: cs => if c = 'T' || c = 't' || c = ' ' then some cs else none
    | [] => none
  let (stamp, cs) ← Scan.time true date cs
  let cs := dropBlanks cs
  let (minutes, cs) ←
    if (cs.take 3).map Char.toUpper = ['U', 'T', 'C'] then some ((0 : Int), cs.drop 3)
    else Scan.offset (fun cs => some (cs.dropWhile fun c => c = ':' || isBlank c)) cs
  if (dropBlanks cs).isEmpty then stamp.shift? (-minutes) else none

end RuleQuery.Calendar
