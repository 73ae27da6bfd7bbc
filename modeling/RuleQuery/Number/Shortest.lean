/-
# The shortest decimal that reads back

The reals that round to a given positive double `m * 2 ^ q` form an interval around it, whose ends
belong to it exactly when `m` is even. Of all decimals in that interval we want one with the fewest
digits, and of those the nearest to the double. A decimal with one digit fewer lies on a grid ten
times as coarse, and if any point of a grid lies in the interval then so does one of the two
neighbours of the double on that grid. So it is enough to try the two neighbours on the grids
`10 ^ j`, from a coarse one downward, and to stop at the first grid with a hit. All comparisons are
of natural numbers.
-/

import RuleQuery.Number.Binary64

namespace RuleQuery.Number

/-- A decimal number `coefficient * 10 ^ exponent`. -/
structure Decimal where
  coefficient : Nat
  exponent : Int
  deriving DecidableEq, Repr

/-- Which neighbour wins when both lie equally near. -/
inductive Tie
  | toEven
  | upward
  deriving DecidableEq, Repr

/-- `x * 2 ^ q` against `y * 10 ^ j`, brought to a common scale. -/
private def scaled (q j : Int) (x y : Nat) : Nat × Nat :=
  (x * twoTo q.toNat * tenTo (-j).toNat, y * tenTo j.toNat * twoTo (-q).toNat)

/--
The neighbour of `m * 2 ^ q` on the grid `10 ^ j` that rounds to it, if there is one, the nearer if
both do. Quarters of `2 ^ q` are the unit in which both ends of the interval are whole numbers; the
lower end is nearer below a power of two, where the spacing halves.
-/
def neighbour? (tie : Tie) (m : Nat) (q j : Int) : Option Nat :=
  let lower := if m = twoTo 52 && -1074 < q then 4 * m - 1 else 4 * m - 2
  let upper := 4 * m + 2
  let inside (k : Nat) : Bool :=
    let (low, point) := scaled q j lower (4 * k)
    let (high, _) := scaled q j upper (4 * k)
    if m % 2 = 0 then low ≤ point && point ≤ high else low < point && point < high
  let (num, den) := scaled q j m 1
  let k := num / den
  match inside k, inside (k + 1) with
  | false, false => none
  | true, false => some k
  | false, true => some (k + 1)
  | true, true =>
    let (double, middle) := scaled q j (2 * m) (2 * k + 1)
    if double < middle then some k
    else if middle < double then some (k + 1)
    else match tie with
      | .upward => some (k + 1)
      | .toEven => some (k + k % 2)

/-- An exponent of ten above which the positive double `m * 2 ^ q` has no digit. -/
def topExponent (m : Nat) (q : Int) : Int :=
  ((m.log2 : Int) + q + 1) * 30103 / 100000 + 2

/-- Drop the zeros at the end of a coefficient; `fuel` bounds their number. -/
def Decimal.stripped : Nat → Decimal → Decimal
  | 0, d => d
  | fuel + 1, d =>
    if d.coefficient ≠ 0 && d.coefficient % 10 = 0 then
      Decimal.stripped fuel ⟨d.coefficient / 10, d.exponent + 1⟩
    else d

/--
The shortest decimal that reads back as the positive double `m * 2 ^ q`. Seventeen digits always
suffice, so one of the grids tried has a hit.
-/
def shortest (tie : Tie) (m : Nat) (q : Int) : Decimal :=
  let top := topExponent m q
  let hit := (List.range 22).findSome? fun (i : Nat) =>
    (neighbour? tie m q (top - i)).map fun k => (⟨k, top - i⟩ : Decimal)
  (hit.getD ⟨0, 0⟩).stripped 40

end RuleQuery.Number
