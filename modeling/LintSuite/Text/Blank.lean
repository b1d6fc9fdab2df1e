/-!
# Blank characters

The white space that the checker trims and skips is the Unicode property `White_Space`: twenty-five
code points, more than the ASCII blanks and fewer than everything that prints as nothing (a
zero-width space, for one, is not blank).

`isBlank` is the property, `trim` takes it off both ends of a text.
-/

namespace LintSuite.Text

/-- **Blank characters.**  The code points with the Unicode property `White_Space`. -/
def isBlank (c : Char) : Bool :=
  let n := c.toNat
  (0x09 ≤ n && n ≤ 0x0D) || n == 0x20 || n == 0x85 || n == 0xA0 || n == 0x1680 ||
    (0x2000 ≤ n && n ≤ 0x200A) || n == 0x2028 || n == 0x2029 || n == 0x202F || n == 0x205F ||
    n == 0x3000

/-- The characters without the blanks in front of them. -/
def trimFront (cs : List Char) : List Char :=
  cs.dropWhile isBlank

/-- The characters without the blanks behind them. -/
def trimBack (cs : List Char) : List Char :=
  (cs.reverse.dropWhile isBlank).reverse

/-- A text without the blanks around it. -/
def trim (s : String) : String :=
  String.ofList (trimBack (trimFront s.toList))

end LintSuite.Text
