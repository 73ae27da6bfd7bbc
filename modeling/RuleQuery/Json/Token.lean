/-
# Tokens of JSON text

The text of a document is cut into tokens first: punctuation, the three words, strings and numbers.
Blanks are the four ASCII ones. In a string, control characters have to be escaped, and an escaped
surrogate has to come in a pair. A number without fraction and exponent is an integer if it fits
into 64 bits, signed or unsigned; every other number is a double, and so is minus zero. A number
too large for a double has no token.

Doubles of documents are computed in doubles: the digits fill a significand of 64 bits, which is
then multiplied or divided by a power of ten. Each step rounds, so a number of many digits may come
out one unit away from the double nearest to it, which is the one that `Number.readBinary64?` finds.
-/

import RuleQuery.Json.Basic
import RuleQuery.Number.Reader

namespace RuleQuery.Json

open RuleQuery.Number

/-- A token of JSON text. -/
inductive Token
  | openArray | closeArray | openObject | closeObject | comma | colon
  | null
  | bool (value : Bool)
  | int (value : Int)
  | float (value : Binary64)
  | string (value : String)
  deriving DecidableEq

namespace Token

/-- The blanks between tokens. -/
def isBlank (c : Char) : Bool :=
  c == ' ' || c == '\t' || c == '\n' || c == '\r'

/-- Four hexadecimal digits. -/
def hex4? : List Char → Option (Nat × List Char)
  | a :: b :: c :: d :: rest => do
    let a ← digit? a
    let b ← digit? b
    let c ← digit? c
    let d ← digit? d
    return (((a * 16 + b) * 16 + c) * 16 + d, rest)
  | _ => none
where
  digit? (c : Char) : Option Nat :=
    if c.isDigit then some (c.toNat - '0'.toNat)
    else if 'a' ≤ c && c ≤ 'f' then some (c.toNat - 'a'.toNat + 10)
    else if 'A' ≤ c && c ≤ 'F' then some (c.toNat - 'A'.toNat + 10)
    else none

/-- The character of an escape by number, after its `u`. -/
def unicodeEscape? (cs : List Char) : Option (Char × List Char) := do
  let (high, rest) ← hex4? cs
  if 0xD800 ≤ high && high < 0xDC00 then
    match rest with
    | '\\' :: 'u' :: rest =>
      let (low, rest) ← hex4? rest
      if 0xDC00 ≤ low && low < 0xE000 then
        return (Char.ofNat (0x10000 + (high - 0xD800) * 0x400 + (low - 0xDC00)), rest)
      else none
    | _ => none
  else if 0xDC00 ≤ high && high < 0xE000 then none
  else return (Char.ofNat high, rest)

/-- The character of an escape, after its backslash. -/
def escape? : List Char → Option (Char × List Char)
  | '"' :: cs => some ('"', cs)
  | '\\' :: cs => some ('\\', cs)
  | '/' :: cs => some ('/', cs)
  | 'b' :: cs => some ('\x08', cs)
  | 'f' :: cs => some ('\x0c', cs)
  | 'n' :: cs => some ('\n', cs)
  | 'r' :: cs => some ('\r', cs)
  | 't' :: cs => some ('\t', cs)
  | 'u' :: cs => unicodeEscape? cs
  | _ => none

/-- The characters of a string up to its closing quote; `fuel` bounds their number. -/
def stringBody? : (fuel : Nat) → List Char → Option (List Char × List Char)
  | 0, _ => none
  | _, [] => none
  | fuel + 1, c :: cs =>
    if c = '"' then some ([], cs)
    else if c = '\\' then do
      let (d, rest) ← escape? cs
      let (ds, rest) ← stringBody? fuel rest
      return (d :: ds, rest)
    else if c.toNat < 0x20 then none
    else do
      let (ds, rest) ← stringBody? fuel cs
      return (c :: ds, rest)

/-- The digits of an exponent, if there is one. -/
def exponent? : List Char → Option (Option Int × List Char)
  | [] => some (none, [])
  | c :: cs =>
    if c = 'e' || c = 'E' then
      let (negative, cs) := takeSign cs
      let (ds, rest) := spanDigits cs
      if ds.isEmpty then none
      else some (some (if negative then -(value ds : Int) else value ds), rest)
    else some (none, c :: cs)

/-- The digits of a fraction, if there is one. -/
def fraction? : List Char → Option (Option (List Char) × List Char)
  | '.' :: cs =>
    let (ds, rest) := spanDigits cs
    if ds.isEmpty then none else some (some ds, rest)
  | cs => some (none, cs)

/-- The whole part of a number: a zero, or digits that do not start with one. -/
def wholePart? (cs : List Char) : Option (List Char × List Char) :=
  match cs with
  | '0' :: rest => some (['0'], rest)
  | _ =>
    let (ds, rest) := spanDigits cs
    if ds.isEmpty then none else some (ds, rest)

/-- The digits that a significand of 64 bits has room for, and those it has not. -/
def takeDigits : (significand : Nat) → List Char → Nat × List Char
  | n, [] => (n, [])
  | n, d :: ds =>
    let longer := n * 10 + (d.toNat - '0'.toNat)
    if isNat64 longer then takeDigits longer ds else (n, d :: ds)

/-- The greatest power of ten that is a double. -/
def greatestPower : Nat := 308

/-- The double nearest to a power of ten. -/
def powerOfTen (k : Nat) : Binary64 := Binary64.ofDecimal false 1 k

/-- A double divided by a power of ten, in steps if it is no double itself. -/
def scaleDown (x : Binary64) (k : Nat) : Binary64 :=
  if k ≤ greatestPower then x.div (powerOfTen k)
  else if x.isZero then x
  else scaleDown (x.div (powerOfTen greatestPower)) (k - greatestPower)
termination_by k
decreasing_by
  unfold greatestPower at *
  omega

/-- A double multiplied with a power of ten, unless that is too large for one. -/
def scaleUp? (x : Binary64) (k : Nat) : Option Binary64 :=
  if k ≤ greatestPower then
    let y := x.mul (powerOfTen k)
    if y.isFinite then some y else none
  else if x.isZero then some x
  else none

/-- The double for a significand and an exponent. -/
def ofDecimal? (negative : Bool) (significand : Nat) (exponent : Int) : Option Token :=
  let x := Binary64.ofDecimal negative significand 0
  if 0 ≤ exponent then (scaleUp? x exponent.toNat).map .float
  else some (.float (scaleDown x exponent.natAbs))

/--
The double for the digits before and after the point and an exponent. Before the point, digits
without room count as zeros, and after it they are dropped.
-/
def ofDigits? (negative : Bool) (whole places : List Char) (exponent : Int) : Option Token :=
  let (significand, zeros) := takeDigits 0 whole
  let (significand, dropped) := takeDigits significand places
  ofDecimal? negative significand
    (exponent + zeros.length - (places.length - dropped.length : Nat))

/-- The token of a number from its sign, its digits and its exponent. -/
def ofNumber? (negative : Bool) (whole : List Char) (fraction : Option (List Char))
    (exponent : Option Int) : Option Token :=
  match fraction, exponent with
  | none, none =>
    let n := value whole
    if negative then
      if n = 0 then some (.float (Binary64.ofMagnitude true 0))
      else if isInt64 (-(n : Int)) then some (.int (-(n : Int)))
      else ofDigits? true whole [] 0
    else if isNat64 n then some (.int n)
    else ofDigits? false whole [] 0
  | _, _ => ofDigits? negative whole (fraction.getD []) (exponent.getD 0)

/-- A number with its sign. -/
def number? (cs : List Char) : Option (Token × List Char) := do
  let (negative, cs) := match cs with
    | '-' :: cs => (true, cs)
    | cs => (false, cs)
  let (whole, cs) ← wholePart? cs
  let (fraction, cs) ← fraction? cs
  let (exponent, cs) ← exponent? cs
  let token ← ofNumber? negative whole fraction exponent
  return (token, cs)

/-- The token at the front of a text, and what follows it. -/
def next? : List Char → Option (Token × List Char)
  | '[' :: cs => some (.openArray, cs)
  | ']' :: cs => some (.closeArray, cs)
  | '\x7b' :: cs => some (.openObject, cs)
  | '\x7d' :: cs => some (.closeObject, cs)
  | ',' :: cs => some (.comma, cs)
  | ':' :: cs => some (.colon, cs)
  | '"' :: cs => (stringBody? (cs.length + 1) cs).map fun (ds, rest) =>
      (.string (String.ofList ds), rest)
  | 't' :: 'r' :: 'u' :: 'e' :: cs => some (.bool true, cs)
  | 'f' :: 'a' :: 'l' :: 's' :: 'e' :: cs => some (.bool false, cs)
  | 'n' :: 'u' :: 'l' :: 'l' :: cs => some (.null, cs)
  | cs => number? cs

/-- All tokens of a text; `fuel` bounds their number. -/
def allOf? : (fuel : Nat) → List Char → Option (List Token)
  | 0, _ => none
  | fuel + 1, cs =>
    match cs.dropWhile isBlank with
    | [] => some []
    | c :: rest => do
      let (token, rest) ← next? (c :: rest)
      let tokens ← allOf? fuel rest
      return token :: tokens

/-- The tokens of a text. Each takes at least one character, so there are no more than those. -/
def read? (cs : List Char) : Option (List Token) :=
  allOf? (cs.length + 1) cs

end Token

end RuleQuery.Json
