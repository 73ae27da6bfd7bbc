/-
# Double-precision numbers

A number of the binary interchange format of 64 bits is kept as its bit pattern: a sign bit,
eleven bits of biased exponent, fifty-two bits of fraction. Everything that depends on its value
goes through `Binary64.view`, which is either one of the special patterns or a sign together with
a natural number times a power of two. Reading a decimal is one rounding of an exact quotient to
the nearest pattern, ties to the even one, in natural-number arithmetic; so the result is correctly
rounded by definition, however many digits are given.
-/

import RuleQuery.Number.Digits

namespace RuleQuery.Number

/-- A double-precision number, as the bits that represent it. -/
structure Binary64 where
  bits : UInt64
  deriving DecidableEq, Repr, Inhabited

namespace Binary64

/-- What a pattern stands for. A finite one is `mantissa * 2 ^ exponent`, with its sign. -/
inductive View
  | nan
  | infinite (negative : Bool)
  | finite (negative : Bool) (mantissa : Nat) (exponent : Int)
  deriving DecidableEq, Repr

/-- Take a pattern apart. Patterns of exponent field zero have no hidden leading bit. -/
def view (x : Binary64) : View :=
  let n := x.bits.toNat
  let negative := decide (twoTo 63 ≤ n)
  let field : Nat := n / twoTo 52 % 2048
  let fraction := n % twoTo 52
  if field = 2047 then
    if fraction = 0 then .infinite negative else .nan
  else if field = 0 then .finite negative fraction (-1074)
  else .finite negative (twoTo 52 + fraction) ((field : Int) - 1075)

/-- Neither infinite nor a NaN. -/
def isFinite (x : Binary64) : Bool :=
  match x.view with
  | .finite .. => true
  | _ => false

/-- The pattern of positive infinity without its sign. -/
def infinityBits : Nat := 2047 * twoTo 52

/-- The number with the given sign and the given bits below it. -/
def ofMagnitude (negative : Bool) (magnitude : Nat) : Binary64 :=
  ⟨UInt64.ofNat (magnitude + if negative then twoTo 63 else 0)⟩

/-- The quiet NaN with a clear sign. -/
def nan : Binary64 :=
  ofMagnitude false (infinityBits + twoTo 51)

/-- The two infinities. -/
def infinity (negative : Bool) : Binary64 :=
  ofMagnitude negative infinityBits

/-- `num / den` rounded to the nearest natural number, a tie to the even one. -/
def divideToEven (num den : Nat) : Nat :=
  let quotient := num / den
  let twice := 2 * (num % den)
  if twice < den then quotient
  else if den < twice then quotient + 1
  else quotient + quotient % 2

/-- The exponent `e` with `2 ^ e ≤ num / den < 2 ^ (e + 1)`, for positive arguments. -/
def binaryExponent (num den : Nat) : Int :=
  let guess : Int := num.log2 - den.log2
  if num * twoTo (-guess).toNat < den * twoTo guess.toNat then guess - 1 else guess

/--
The bits nearest to the positive quotient `num / den`. The spacing there is `2 ^ q`; a result that
rounds up to the next power of two carries into the exponent field by itself, and one beyond the
largest finite number is infinite.
-/
def roundQuotient (num den : Nat) : Nat :=
  let q := max (binaryExponent num den - 52) (-1074)
  let mantissa := divideToEven (num * twoTo (-q).toNat) (den * twoTo q.toNat)
  min ((q + 1074).toNat * twoTo 52 + mantissa) infinityBits

/--
The number nearest to `significand * 10 ^ exponent`. A power of ten far outside the range of the
format is not computed: with `size` digits the value lies below `10 ^ (size + exponent)`.
-/
def ofDecimal (negative : Bool) (significand : Nat) (exponent : Int) : Binary64 :=
  let size : Int := (digits significand).length
  if significand = 0 || size + exponent < -330 then ofMagnitude negative 0
  else if 320 < size + exponent then infinity negative
  else ofMagnitude negative
    (roundQuotient (significand * tenTo exponent.toNat) (tenTo (-exponent).toNat))

/-- The number nearest to an integer. -/
def ofInt (n : Int) : Binary64 :=
  ofDecimal (n < 0) n.natAbs 0

/-- One of the two zeros. -/
def isZero (x : Binary64) : Bool :=
  match x.view with
  | .finite _ 0 _ => true
  | _ => false

/-- The number nearest to `num / den * 2 ^ exponent`. -/
def ofQuotient (negative : Bool) (num den : Nat) (exponent : Int) : Binary64 :=
  ofMagnitude negative
    (if num = 0 then 0
    else roundQuotient (num * twoTo exponent.toNat) (den * twoTo (-exponent).toNat))

/-- The product of two finite numbers, rounded once. No others are multiplied. -/
def mul (x y : Binary64) : Binary64 :=
  match x.view, y.view with
  | .finite s m e, .finite t n f => ofQuotient (s != t) (m * n) 1 (e + f)
  | _, _ => nan

/-- The quotient of two finite numbers, rounded once. No others are divided, nor is by zero. -/
def div (x y : Binary64) : Binary64 :=
  match x.view, y.view with
  | .finite s m e, .finite t n f => ofQuotient (s != t) m n (e - f)
  | _, _ => nan

end Binary64

end RuleQuery.Number
