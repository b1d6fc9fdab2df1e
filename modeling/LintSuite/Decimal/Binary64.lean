import LintSuite.Decimal.Power

/-!
# Binary fractions of 64 bits

A finite number of the 64-bit format is `mantissa * 2 ^ exponent` with a sign.  `Magnitude` holds
the first two, decoded from the bits, and the one irregularity of the format: below a power of two
the neighbouring numbers lie half as far apart as above it.

`Magnitude.holds` is the test the printer of this library is built on.  It says, in whole numbers
alone, whether a decimal lies among the reals that round to the number.
-/

namespace LintSuite.Decimal

/-- A finite magnitude, `mantissa * 2 ^ exponent`. -/
structure Magnitude where
  /-- The whole number that is scaled. -/
  mantissa : Nat
  /-- The power of two it is scaled by. -/
  exponent : Int
  /-- Whether the next number below is half as far away as the next one above. -/
  narrowBelow : Bool
  deriving DecidableEq, Repr

/-- A decimal, `digits * 10 ^ exponent`. -/
structure Scaled where
  /-- The whole number that is scaled. -/
  digits : Nat
  /-- The power of ten it is scaled by. -/
  exponent : Int
  deriving DecidableEq, Repr

/-- What the bits of a number say. -/
inductive Reading where
  /-- No number. -/
  | undefined
  /-- Beyond every finite number. -/
  | infinite (negative : Bool)
  /-- A finite number. -/
  | finite (negative : Bool) (magnitude : Magnitude)
  deriving DecidableEq, Repr

/-- **Decoding.**  The sign, the exponent field and the fraction field of the bits. -/
def Reading.ofBits (bits : UInt64) : Reading :=
  let negative := bits >>> 63 == 1
  let field := ((bits >>> 52) &&& 0x7FF).toNat
  let fraction := (bits &&& 0xFFFFFFFFFFFFF).toNat
  if field == 0x7FF then
    if fraction == 0 then .infinite negative else .undefined
  else if field == 0 then .finite negative ⟨fraction, -1074, false⟩
  else .finite negative ⟨twoTo 52 + fraction, (field : Int) - 1075, fraction == 0 && field > 1⟩

/-- The order of `a * 10 ^ i` and `b * 2 ^ j`. -/
def compareScaled (a : Nat) (i : Int) (b : Nat) (j : Int) : Ordering :=
  compare (a * tenTo i.toNat * twoTo (-j).toNat) (b * twoTo j.toNat * tenTo (-i).toNat)

/-- **Rounding interval.**  Whether a decimal rounds to the magnitude: it lies between the halfway
points to the two neighbours, which count as inside exactly when the mantissa is even. -/
def Magnitude.holds (x : Magnitude) (d : Scaled) : Bool :=
  let below := if x.narrowBelow then 4 * x.mantissa - 1 else 4 * x.mantissa - 2
  let above := 4 * x.mantissa + 2
  let closed := x.mantissa % 2 == 0
  let left := compareScaled d.digits d.exponent below (x.exponent - 2)
  let right := compareScaled d.digits d.exponent above (x.exponent - 2)
  (left == .gt || (closed && left == .eq)) && (right == .lt || (closed && right == .eq))

end LintSuite.Decimal
