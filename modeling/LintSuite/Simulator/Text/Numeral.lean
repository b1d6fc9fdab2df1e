import LintSuite.Simulator.Text.Octets

/-!
# Numbers that texts spell

Programs differ in what may stand around the digits of a number: nothing at all (`digits?`), a sign
in front (`integer?`), or blanks as well, as long as the number is a word of 64 bits (`word?`), and
not negative and no more than 31 of its bits (`small?`).
-/

namespace LintSuite.Text.Numeral

/-- The number of some decimal digits. -/
def ofDigits (digits : List Char) : Nat :=
  digits.foldl (fun n c => n * 10 + (c.toNat - '0'.toNat)) 0

/-- The number of some characters, if they are digits and there are any. -/
def ofDigits? (cs : List Char) : Option Nat :=
  if cs.isEmpty || !cs.all Char.isDigit then none else some (ofDigits cs)

/-- **The number that a text spells** by digits alone. -/
def digits? (text : String) : Option Nat := ofDigits? text.toList

/-- The number of some digits, perhaps with a sign in front. -/
def ofSigned? : List Char → Option Int
  | '-' :: cs => (ofDigits? cs).map fun n => -(n : Int)
  | '+' :: cs => (ofDigits? cs).map fun n => (n : Int)
  | cs => (ofDigits? cs).map fun n => (n : Int)

/-- **The number that a text spells** by digits with a sign in front or none. -/
def integer? (text : String) : Option Int := ofSigned? text.toList

/-- Whether a character is a blank or ends a line or a page. -/
def isSpace (c : Char) : Bool := Octets.isSpace (UInt8.ofNat c.toNat)

/-- A text without the blanks around it. -/
def trimmed (cs : List Char) : List Char :=
  ((cs.dropWhile isSpace).reverse.dropWhile isSpace).reverse

/-- **The word of 64 bits that a text spells**, blanks around it aside. -/
def word? (text : String) : Option Int :=
  (ofSigned? (trimmed text.toList)).filter fun n =>
    -0x8000000000000000 ≤ n && n < 0x8000000000000000

/-- **The small number that a text spells**, blanks around it aside. -/
def small? (text : String) : Option Nat :=
  ((word? text).filter fun n => 0 ≤ n && n < 0x80000000).map Int.toNat

end LintSuite.Text.Numeral
