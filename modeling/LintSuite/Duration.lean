import LintSuite.Decimal.Power

/-!
# Spans of time

A span is a number of nanoseconds.  It is shown in the largest of four units in which it is at least
one, with the decimals it needs and no more.
-/

namespace LintSuite

open Decimal

/-- **A span of time.** -/
structure Duration where
  /-- Its length in nanoseconds. -/
  nanos : Nat
  deriving DecidableEq, Repr

namespace Duration

/-- A number of seconds. -/
def ofSeconds (n : Nat) : Duration := ⟨n * 1000000000⟩

/-- A number of microseconds. -/
def ofMicros (n : Nat) : Duration := ⟨n * 1000⟩

/-- The decimals of a fraction of a unit of `10 ^ places` parts: none for a whole number, else
without zeros at the end. -/
def decimals (fraction places : Nat) : String :=
  let digits := (toString fraction).toList
  let padded := List.replicate (places - digits.length) '0' ++ digits
  if fraction = 0 then ""
  else String.ofList ('.' :: (padded.reverse.dropWhile (· == '0')).reverse)

/-- A span in a unit of `10 ^ places` nanoseconds. -/
def inUnit (d : Duration) (places : Nat) (unit : String) : String :=
  toString (d.nanos / tenTo places) ++ decimals (d.nanos % tenTo places) places ++ unit

/-- **The text of a span.** -/
def text (d : Duration) : String :=
  if tenTo 9 ≤ d.nanos then d.inUnit 9 "s"
  else if tenTo 6 ≤ d.nanos then d.inUnit 6 "ms"
  else if tenTo 3 ≤ d.nanos then d.inUnit 3 "µs"
  else d.inUnit 0 "ns"

end Duration

end LintSuite
