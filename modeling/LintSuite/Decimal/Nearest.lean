import LintSuite.Decimal.Binary64

/-!
# The nearest number of the 64-bit format

A decimal rarely is a number of the format; it is read as the nearest one, and as the one with an
even mantissa if two are equally near.  The rounding is done on whole numbers: the decimal is scaled
so that fifty-three bits stand before the point (fewer near zero, where the format has no smaller
unit), and rounded there once.
-/

namespace LintSuite.Decimal

/-- A quotient rounded to the nearest whole number, a half to the even neighbour. -/
def roundHalfEven (num den : Nat) : Nat :=
  let q := num / den
  match compare (2 * (num % den)) den with
  | .lt => q
  | .gt => q + 1
  | .eq => if q % 2 == 0 then q else q + 1

/-- The power of two that is the unit of the format at the quotient `num / den`. -/
def unitAt (num den : Nat) : Int :=
  let guess : Int := (Nat.log2 num : Int) - Nat.log2 den - 52
  -- The quotient has fifty-two or fifty-three bits before the point at the guess.
  let wide := den * twoTo (guess - 1).toNat * twoTo 53 ≤ num * twoTo (1 - guess).toNat
  max (if wide then guess else guess - 1) (-1074)

/-- The bits of the number nearest to the quotient `num / den`, infinity if it is out of range. -/
def nearestBits (num den : Nat) : UInt64 :=
  if num == 0 then 0
  else
    let e := unitAt num den
    let q := roundHalfEven (num * twoTo (-e).toNat) (den * twoTo e.toNat)
    if 972 ≤ e then 0x7FF0000000000000
    else UInt64.ofNat (min ((e + 1074).toNat * twoTo 52 + q) 0x7FF0000000000000)

/-- **The nearest number** to a decimal with a sign.  A decimal whose leading digit stands four
hundred places from the point is infinite or zero, whatever its digits. -/
def nearest (negative : Bool) (d : Scaled) : Float :=
  let places := (Nat.toDigits 10 d.digits).length + d.exponent
  let bits :=
    if d.digits == 0 || places < -400 then 0
    else if 400 < places then 0x7FF0000000000000
    else nearestBits (d.digits * tenTo d.exponent.toNat) (tenTo (-d.exponent).toNat)
  Float.ofBits (if negative then bits ||| 0x8000000000000000 else bits)

end LintSuite.Decimal
