/-
# How a double is written

The digits of a double are the shortest that read back. A `Layout` says how they are laid out: up
to which size a number is written positionally, what an exponent looks like, and which of two
equally near decimals is taken. Two layouts are in use, one for SQL text and one for documents.
-/

import RuleQuery.Number.Shortest

namespace RuleQuery.Number

/-- The choices that turn digits into text. -/
structure Layout where
  /-- The least exponent of the leading digit that is written positionally. -/
  least : Int
  /-- The greatest exponent of the leading digit that is written positionally. -/
  greatest : Int
  /-- Whether a positive exponent carries a plus sign. -/
  plusSign : Bool
  tie : Tie
  deriving DecidableEq, Repr

/-- SQL text writes numbers from `0.0001` up to sixteen digits before the point positionally. -/
def Layout.sql : Layout := ⟨-4, 15, false, .upward⟩

/-- Documents write numbers from `0.00001` on positionally, and give every exponent a sign. -/
def Layout.document : Layout := ⟨-5, 15, true, .toEven⟩

namespace Layout

/--
Positional text: the digits with a point after the one of exponent zero, zeros where there is no
digit, and at least one digit on each side of the point.
-/
def positional (d : Decimal) : List Char :=
  let ds := digits d.coefficient
  if 0 ≤ d.exponent then ds ++ List.replicate d.exponent.toNat '0' ++ ['.', '0']
  else
    let places := (-d.exponent).toNat
    let whole := List.replicate (places + 1 - ds.length) '0' ++ ds
    whole.take (whole.length - places) ++ '.' :: whole.drop (whole.length - places)

/-- Scientific text: one digit, a point and the other digits if there are any, the exponent. -/
def scientific (layout : Layout) (d : Decimal) : List Char :=
  let ds := digits d.coefficient
  let power : Int := d.exponent + ds.length - 1
  let sign := if power < 0 then ['-'] else if layout.plusSign then ['+'] else []
  let mantissa := match ds with
    | [] => []
    | [c] => [c]
    | c :: rest => c :: '.' :: rest
  mantissa ++ 'e' :: sign ++ digits power.natAbs

/-- The text of a positive double. -/
def magnitude (layout : Layout) (m : Nat) (q : Int) : List Char :=
  let d := shortest layout.tie m q
  let power : Int := d.exponent + (digits d.coefficient).length - 1
  if layout.least ≤ power && power ≤ layout.greatest then positional d
  else layout.scientific d

/-- The text of a double; zero keeps its sign. -/
def text (layout : Layout) (x : Binary64) : String :=
  match x.view with
  | .nan => "NaN"
  | .infinite negative => if negative then "-inf" else "inf"
  | .finite negative m q =>
    let sign := if negative then ['-'] else []
    let body := if m = 0 then ['0', '.', '0'] else layout.magnitude m q
    String.ofList (sign ++ body)

end Layout

end RuleQuery.Number
