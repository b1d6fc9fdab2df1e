import LintSuite.Decimal.Nearest
import LintSuite.Decimal.Shortest

/-!
# Decimals of a given length

A magnitude is printed with a number of places behind the point (`Magnitude.fixed`), with a number
of places and a power of ten (`Magnitude.scientific`), in the shorter of the two ways with a number
of digits in all (`Magnitude.general`), or in sixteenths with a power of two
(`Magnitude.hexadecimal`).  All of them round the exact value once, by `roundHalfEven`.
-/

namespace LintSuite.Decimal

/-- The digits of a whole number with a point so many places from their end. -/
def pointed (places n : Nat) : List Char :=
  let digits := Nat.toDigits 10 n
  let digits := List.replicate (places + 1 - digits.length) '0' ++ digits
  let whole := digits.take (digits.length - places)
  if places = 0 then whole else whole ++ '.' :: digits.drop (digits.length - places)

/-- A power of ten behind its mark. -/
def powerText (power : Int) : List Char :=
  let digits := Nat.toDigits 10 power.natAbs
  'e' :: (if power < 0 then '-' else '+') :: List.replicate (2 - digits.length) '0' ++ digits

/-- Digits without the zeros at the end of their fraction. -/
def trimmed (cs : List Char) : List Char :=
  if cs.contains '.' then
    let kept := (cs.reverse.dropWhile (· == '0')).reverse
    if kept.getLast? = some '.' then kept.dropLast else kept
  else cs

namespace Magnitude

/-- The nearest whole number of units of a power of ten. -/
def units (x : Magnitude) (power : Int) : Nat :=
  let (num, den) := x.quotient power
  roundHalfEven num den

/-- A digit before the point and some places behind it, as a whole number, and the power of ten that
they are scaled by. -/
def leading (x : Magnitude) (places : Nat) : Nat × Int :=
  if x.mantissa = 0 then (0, 0)
  else
    let power := x.scale - 1
    let n := x.units (power - places)
    if n < tenTo (places + 1) then (n, power) else (n / 10, power + 1)

/-- **With some places** behind the point. -/
def fixed (x : Magnitude) (places : Nat) : List Char :=
  pointed places (x.units (-(places : Int)))

/-- **With one digit before the point**, some places behind it, and a power of ten. -/
def scientific (x : Magnitude) (places : Nat) : List Char :=
  let (n, power) := x.leading places
  pointed places n ++ powerText power

/-- **With some digits in all**, of which zeros at the end may be left out; with a power of ten where
the point would stand outside of the digits or far in front of them. -/
def general (x : Magnitude) (short : Bool) (digits : Nat) : List Char :=
  let places := max 1 digits - 1
  let (n, power) := x.leading places
  let cut := fun (cs : List Char) => if short then trimmed cs else cs
  if -4 ≤ power && power ≤ places then cut (x.fixed (places - power).toNat)
  else cut (pointed places n) ++ powerText power

/-- **In sixteenths**, with one digit before the point, some places behind it or as many as it takes,
and a power of two. -/
def hexadecimal (x : Magnitude) (places : Option Nat) : List Char :=
  let power : Int := if x.mantissa = 0 then 0 else x.exponent + 52
  let fits := (places.getD 13) < 13
  let unit := Nat.pow 16 (13 - places.getD 13)
  let n := if fits then roundHalfEven x.mantissa unit else x.mantissa
  let shown := if fits then places.getD 13 else 13
  let digits := Nat.toDigits 16 n
  let digits := List.replicate (shown + 1 - digits.length) '0' ++ digits
  let part := digits.drop (digits.length - shown)
  let part := match places with
    | some n => part ++ List.replicate (n - 13) '0'
    | none => (part.reverse.dropWhile (· == '0')).reverse
  let sign := if power < 0 then '-' else '+'
  digits.take (digits.length - shown) ++ (if part.isEmpty then [] else '.' :: part) ++
    'p' :: sign :: Nat.toDigits 10 power.natAbs

end Magnitude

end LintSuite.Decimal
