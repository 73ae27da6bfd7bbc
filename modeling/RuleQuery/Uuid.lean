/-
# Universally unique identifiers

An identifier of 128 bits, written as thirty-two hexadecimal digits in five groups. It may be read
with or without the hyphens, and the hyphenated form also in braces or after `urn:uuid:`. The case
of letters does not matter, neither in the digits nor in that name.
-/

import RuleQuery.Text.Letters

namespace RuleQuery

/-- An identifier of 128 bits. -/
structure Uuid where
  value : BitVec 128
  deriving DecidableEq

namespace Uuid

/-- The identifier with no bit set, which names nothing. -/
def nil : Uuid := ⟨0#128⟩

/-- The value of a hexadecimal digit. -/
def hexValue? (c : Char) : Option Nat :=
  if c.isDigit then some (c.toNat - '0'.toNat)
  else if 'a' ≤ c && c ≤ 'f' then some (c.toNat - 'a'.toNat + 10)
  else if 'A' ≤ c && c ≤ 'F' then some (c.toNat - 'A'.toNat + 10)
  else none

/-- The identifier with the given thirty-two digits. -/
def ofDigits? (cs : List Char) : Option Uuid :=
  if cs.length = 32 then
    (cs.mapM hexValue?).map fun ds => ⟨BitVec.ofNat 128 (ds.foldl (fun n d => 16 * n + d) 0)⟩
  else none

/-- The digits of the hyphenated form, whose groups have 8, 4, 4, 4 and 12 of them. -/
def ungroup? (cs : List Char) : Option (List Char) :=
  let hyphens := [8, 13, 18, 23].map fun (i : Nat) => cs[i]?
  if cs.length = 36 && hyphens.all (· == some '-') then
    some (cs.take 8 ++ (cs.drop 9).take 4 ++ (cs.drop 14).take 4 ++ (cs.drop 19).take 4 ++
      cs.drop 24)
  else none

/-- What follows the name of the form that starts with one, if the text does. -/
def afterName? (cs : List Char) : Option (List Char) :=
  let name := "urn:uuid:"
  if Text.sameLetters (String.ofList (cs.take name.length)) name then some (cs.drop name.length)
  else none

/-- Read an identifier in any of its forms. -/
def read? (s : String) : Option Uuid :=
  let cs := s.toList
  if cs.length = 32 then ofDigits? cs
  else
    let grouped :=
      if cs.length = 38 && cs.head? == some '\x7b' && cs.getLast? == some '\x7d' then
        (cs.drop 1).dropLast
      else (afterName? cs).getD cs
    (ungroup? grouped).bind ofDigits?

/-- The hexadecimal digit of a number below sixteen. -/
def hexDigit (n : Nat) : Char :=
  "0123456789abcdef".toList.getD n '0'

/-- The hyphenated form, in lower case. -/
def text (u : Uuid) : String :=
  let ds := (List.range 32).map fun (i : Nat) => hexDigit ((u.value.toNat >>> (4 * (31 - i))) % 16)
  String.ofList (ds.take 8 ++ '-' :: (ds.drop 8).take 4 ++ '-' :: (ds.drop 12).take 4 ++
    '-' :: (ds.drop 16).take 4 ++ '-' :: ds.drop 20)

end Uuid

end RuleQuery
