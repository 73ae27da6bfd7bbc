/-
# Edit distance and suggestions

The edit distance of two texts is the least number of single characters to insert, delete or
replace that turns one into the other. It is computed row by row: for a text `a`, the row of `b`
holds the distances from `a` to every end piece of `b`, the longest first, and the row for `c :: a`
is computed from the row for `a`. For a name that is not declared, the closest declared name is
suggested if it is close enough.
-/

namespace RuleQuery

namespace EditDistance

/-- The distances from the empty text to the end pieces of a text: their lengths. -/
def firstRow : List Char → List Nat
  | [] => [0]
  | _ :: cs => (cs.length + 1) :: firstRow cs

/-- The distances from `c :: a` to the end pieces of `b`, given those from `a`. -/
def nextRow (c : Char) : (b : List Char) → (row : List Nat) → List Nat
  | [], row => [row.headD 0 + 1]
  | d :: b, row =>
    let rest := nextRow c b row.tail
    let replaced := row.tail.headD 0 + if c = d then 0 else 1
    let deleted := row.headD 0 + 1
    let inserted := rest.headD 0 + 1
    min replaced (min deleted inserted) :: rest

/-- The distances from a text to the end pieces of another. -/
def row (b : List Char) : List Char → List Nat
  | [] => firstRow b
  | c :: a => nextRow c b (row b a)

/-- The edit distance of two texts. -/
def distance (a b : List Char) : Nat :=
  (row b a).headD 0

end EditDistance

namespace Suggestion

/-- How far off a name may be. Short names have to be exact. -/
def budget (size : Nat) : Nat :=
  if size ≤ 2 then 0 else if size ≤ 5 then 2 else 3

/-- The first of the closest candidates, with its distance. -/
def closest? : List (Nat × String) → Option (Nat × String)
  | [] => none
  | x :: rest =>
    match closest? rest with
    | none => some x
    | some y => if y.1 < x.1 then some y else some x

/-- The declared name that was probably meant. -/
def find? (name : String) (declared : List String) : Option String :=
  let measured := declared.map fun d => (EditDistance.distance name.toList d.toList, d)
  (closest? (measured.filter fun x => x.1 ≤ budget name.length)).map Prod.snd

end Suggestion

end RuleQuery
