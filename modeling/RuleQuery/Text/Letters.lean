/-
# Letter case

Keywords are compared without regard to case, in one of two ways. `sameLetters` ignores the case
of ASCII letters only. `upper` uses the full upper-case map, in which a few letters outside ASCII
have an upper-case form written in ASCII (the long s, the dotless i, the sharp s, the Latin
ligatures), so that such a letter can take part in a keyword. Letters whose upper-case form lies
outside ASCII cannot, and `upper` leaves them as they are.
-/

namespace RuleQuery.Text

/-- The upper-case form of a character, as far as it is written in ASCII. -/
def upperChar (c : Char) : List Char :=
  match c.toNat with
  | 0x00DF => ['S', 'S']
  | 0x0131 => ['I']
  | 0x017F => ['S']
  | 0xFB00 => ['F', 'F']
  | 0xFB01 => ['F', 'I']
  | 0xFB02 => ['F', 'L']
  | 0xFB03 => ['F', 'F', 'I']
  | 0xFB04 => ['F', 'F', 'L']
  | 0xFB05 => ['S', 'T']
  | 0xFB06 => ['S', 'T']
  | _ => [c.toUpper]

/-- Upper case in the full sense, exact for comparison with an ASCII keyword. -/
def upper (s : String) : String :=
  String.ofList (s.toList.flatMap upperChar)

/-- Upper case for the letters `a` to `z` only. -/
def upperAscii (s : String) : String :=
  String.ofList (s.toList.map Char.toUpper)

/-- Equality up to the case of ASCII letters. -/
def sameLetters (a b : String) : Bool :=
  upperAscii a == upperAscii b

end RuleQuery.Text
