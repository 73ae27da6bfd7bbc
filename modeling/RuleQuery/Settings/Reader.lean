/-
# Settings from a settings file

The settings of the compiler are the table `compiler` of a settings file. Other tables and other
keys are ignored, and what is missing has its default; but a value that does not fit is refused. A
date or a time may stand for the table: it sets nothing.
-/

import RuleQuery.Error
import RuleQuery.Settings
import RuleQuery.Settings.Toml

namespace RuleQuery.Settings

/-- A separator: its name, or a table whose only key is the name and which holds nothing else. -/
def separatorOf? : Toml.Value → Option Separator
  | .string s => Separator.ofName? s
  | .table _ [(s, .table _ [])] => Separator.ofName? s
  | .table _ [(s, .array [])] => Separator.ofName? s
  | _ => none

/-- A length, which is not negative. -/
def lengthOf? : Toml.Value → Option Nat
  | .integer n => if 0 ≤ n then some n.toNat else none
  | _ => none

/-- The settings of two values, each of which may be missing. -/
def ofValues? (separator maxLength : Option Toml.Value) : Option Settings := do
  let separator ← match separator with
    | some v => separatorOf? v
    | none => some default.separator
  let maxLength ← match maxLength with
    | some v => lengthOf? v
    | none => some default.maxLength
  return ⟨separator, maxLength⟩

/--
The settings of the value under `compiler`: a table, an array of the values in order, or a date or a
time, which counts as a table without either key.
-/
def ofValue? : Toml.Value → Option Settings
  | .table _ entries =>
    ofValues? (Toml.find? "clause_separator" entries) (Toml.find? "max_query_length" entries)
  | .array items => ofValues? items[0]? items[1]?
  | .tables items =>
    ofValues? (items[0]?.map (.table .header)) (items[1]?.map (.table .header))
  | .moment => ofValues? none none
  | _ => none

/-- The settings of a settings file. -/
def ofText? (s : String) : Option Settings := do
  let entries ← Toml.read? s
  match Toml.find? "compiler" entries with
  | some v => ofValue? v
  | none => some default

/-- The settings of a text that comes from a file, if it has a path. -/
def ofText (path : Option String) (s : String) : Except RuleError Settings :=
  match ofText? s with
  | some settings => .ok settings
  | none => .error (.settings (.malformed path))

end RuleQuery.Settings
