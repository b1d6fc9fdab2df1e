import LintSuite.Decimal.Binary64

/-!
# The fewest digits that read back

Among the decimals that round to a number some have the fewest digits, and among those one lies
closest.  `Magnitude.shortest` finds it by trying one digit, two digits, and so on: on the grid of
decimals with so many digits only the two neighbours of the number can be closest, and
`Magnitude.holds` tests them.

Seventeen digits always suffice for the 64-bit format.  Should none be found all the same, the exact
decimal value is given, never a guess.
-/

namespace LintSuite.Decimal

/-- Which of two equally close decimals is taken. -/
inductive Tie where
  /-- The one with an even last digit. -/
  | even
  /-- The greater one. -/
  | up
  deriving DecidableEq, Repr

namespace Magnitude

/-- The magnitude over `10 ^ k`, as a quotient of whole numbers. -/
def quotient (x : Magnitude) (k : Int) : Nat × Nat :=
  (x.mantissa * twoTo x.exponent.toNat * tenTo (-k).toNat,
    twoTo (-x.exponent).toNat * tenTo k.toNat)

/-- A first guess at `scale`, from the number of bits: never above it, and at most three below. -/
def scaleGuess (x : Magnitude) : Int :=
  Int.fdiv (((Nat.log2 x.mantissa : Int) + x.exponent) * 30103) 100000 - 1

/-- The least `k` with `x < 10 ^ k`, looked for upwards from a guess. -/
def scaleFrom (x : Magnitude) (k : Int) : Nat → Int
  | 0 => k
  | steps + 1 =>
    let (num, den) := x.quotient k
    if num < den then k else scaleFrom x (k + 1) steps

/-- The number of places before the point: the least `k` with `x < 10 ^ k`. -/
def scale (x : Magnitude) : Int :=
  x.scaleFrom x.scaleGuess 5

/-- The closest decimal with `places` digits that rounds to the magnitude, if there is one. -/
def onGrid (x : Magnitude) (tie : Tie) (k : Int) (places : Nat) : Option Scaled :=
  let step := k - places
  let (num, den) := x.quotient step
  let low : Scaled := ⟨num / den, step⟩
  let high : Scaled := ⟨num / den + 1, step⟩
  match x.holds low, x.holds high with
  | false, false => none
  | true, false => some low
  | false, true => some high
  | true, true =>
    match compare (2 * (num % den)) den, tie with
    | .lt, _ => some low
    | .gt, _ => some high
    | .eq, .up => some high
    | .eq, .even => some (if low.digits % 2 == 0 then low else high)

/-- The exact decimal value. -/
def exact (x : Magnitude) : Scaled :=
  if 0 ≤ x.exponent then ⟨x.mantissa * twoTo x.exponent.toNat, 0⟩
  else ⟨x.mantissa * Nat.pow 5 (-x.exponent).toNat, x.exponent⟩

/-- **The fewest digits that read back.**  The closest decimal on the coarsest grid that has one. -/
def shortest (x : Magnitude) (tie : Tie) : Scaled :=
  ((List.range' 1 17).findSome? (x.onGrid tie x.scale)).getD x.exact

end Magnitude

/-- Without trailing zeros: they move into the exponent. -/
def Scaled.strip (d : Scaled) : Nat → Scaled
  | 0 => d
  | steps + 1 =>
    if d.digits % 10 == 0 && d.digits != 0 then Scaled.strip ⟨d.digits / 10, d.exponent + 1⟩ steps
    else d

end LintSuite.Decimal
