/-
# Blank characters, trimming and words

Blank means the White_Space property of the character standard, which is wider than the ASCII
blanks: a no-break space or an ideographic space is blank too. A text is read as a list of
characters, so that every function here is a plain recursion or a `dropWhile`.
-/

namespace RuleQuery.Text

/-- The characters with the White_Space property. -/
def isBlank (c : Char) : Bool :=
  let n := c.toNat
  (9 ≤ n && n ≤ 13) || n == 0x20 || n == 0x85 || n == 0xA0 || n == 0x1680 ||
    (0x2000 ≤ n && n ≤ 0x200A) || n == 0x2028 || n == 0x2029 || n == 0x202F || n == 0x205F ||
    n == 0x3000

/-- A text with nothing in it but blanks; the empty text is one. -/
def isBlankText (s : String) : Bool :=
  s.toList.all isBlank

/-- Drop the blanks in front. -/
def dropBlanks (cs : List Char) : List Char :=
  cs.dropWhile isBlank

/-- A text without the blanks at its two ends. -/
def trim (s : String) : String :=
  String.ofList (dropBlanks (dropBlanks s.toList).reverse).reverse

/-- The maximal runs of characters that are not blank, in order. -/
def words : List Char → List (List Char)
  | [] => []
  | c :: cs =>
    if isBlank c then words cs
    else match cs with
      | [] => [[c]]
      | d :: _ =>
        if isBlank d then [c] :: words cs
        else match words cs with
          | [] => [[c]]
          | w :: ws => (c :: w) :: ws

/-- The words of a text with one space between neighbours. -/
def squeeze (s : String) : String :=
  String.intercalate " " ((words s.toList).map String.ofList)

/-- No word is empty. -/
theorem ne_nil_of_mem_words {cs w : List Char} (h : w ∈ words cs) : w ≠ [] := by
  fun_induction words cs generalizing w <;> grind

end RuleQuery.Text
