/-!
# Ranges of code points

A property of characters that comes as a table is a list of ranges, ends included.
-/

namespace LintSuite.Text

/-- Whether a code point lies in one of the ranges. -/
def within (ranges : List (Nat × Nat)) (n : Nat) : Bool :=
  ranges.any fun r => r.1 ≤ n && n ≤ r.2

end LintSuite.Text
