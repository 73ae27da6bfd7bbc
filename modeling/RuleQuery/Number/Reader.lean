/-
# Reading a double from text

The accepted texts are an optional sign followed by a word for infinity or for NaN in any case, or
by digits with an optional point (with a digit on at least one side) and an optional exponent.
Nothing may stand before or after. A number too large for the format reads as infinity.
-/

import RuleQuery.Number.Binary64
import RuleQuery.Text.Letters

namespace RuleQuery.Number

/-- The digits before and after an optional point, and what follows them. -/
def takeMantissa (cs : List Char) : List Char × List Char × List Char :=
  let (whole, rest) := spanDigits cs
  match rest with
  | '.' :: rest => (whole, spanDigits rest)
  | rest => (whole, [], rest)

/-- An optional exponent that ends the text. -/
def readExponent? : List Char → Option Int
  | [] => some 0
  | c :: cs =>
    if c = 'e' || c = 'E' then
      let (negative, ds) := takeSign cs
      if ds.isEmpty || !ds.all Char.isDigit then none
      else some (if negative then -(value ds : Int) else value ds)
    else none

/-- A decimal with an optional exponent, after its sign. -/
def readMagnitude? (negative : Bool) (cs : List Char) : Option Binary64 :=
  let (whole, fraction, rest) := takeMantissa cs
  if whole.isEmpty && fraction.isEmpty then none
  else (readExponent? rest).map fun exponent =>
    Binary64.ofDecimal negative (value (whole ++ fraction)) (exponent - fraction.length)

/-- Read a whole text as a double. -/
def readBinary64? (s : String) : Option Binary64 :=
  let (negative, cs) := takeSign s.toList
  let word := String.ofList (cs.map Char.toLower)
  if word = "inf" || word = "infinity" then some (.infinity negative)
  else if word = "nan" then some .nan
  else readMagnitude? negative cs

end RuleQuery.Number
