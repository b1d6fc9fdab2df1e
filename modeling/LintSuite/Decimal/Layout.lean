import LintSuite.Decimal.Shortest

/-!
# Numbers as text

A number is written by its shortest digits; a `Layout` says how they are laid out.  Two layouts are
in use: `plain`, for messages and arguments of commands, never uses an exponent; `stored`, for the
settings file, marks whole numbers with `.0` and turns to an exponent for the very small and the
very large.
-/

namespace LintSuite.Decimal

/-- The decisions that the digits of a number leave open. -/
structure Layout where
  /-- Which of two equally close decimals is written. -/
  tie : Tie
  /-- Whether a number with so many places before its point is written without an exponent. -/
  positional : Int → Bool
  /-- What follows a whole number. -/
  whole : List Char
  /-- What stands for no number. -/
  undefined : List Char
  /-- What stands for an infinity, after its sign. -/
  infinite : List Char
  /-- Whether an infinity has a sign. -/
  signedInfinity : Bool

/-- The layout of messages and arguments: no exponent, nothing after a whole number. -/
def plain : Layout where
  tie := .up
  positional := fun _ => true
  whole := []
  undefined := ['N', 'a', 'N']
  infinite := ['i', 'n', 'f']
  signedInfinity := true

/-- The layout of the settings file: positional from `0.00001` to below `10 ^ 16`, and no text for
what is not finite. -/
def stored : Layout where
  tie := .even
  positional := fun k => -5 < k && k ≤ 16
  whole := ['.', '0']
  undefined := ['n', 'u', 'l', 'l']
  infinite := ['n', 'u', 'l', 'l']
  signedInfinity := false

/-- The decimal digits of a whole number. -/
def digitsOf (n : Nat) : List Char :=
  Nat.toDigits 10 n

/-- Digits with a point after the first `places` of them, filled up with zeros. -/
def positional (layout : Layout) (ds : List Char) (places : Int) : List Char :=
  if places ≤ 0 then ['0', '.'] ++ List.replicate (-places).toNat '0' ++ ds
  else if ds.length ≤ places.toNat then
    ds ++ List.replicate (places.toNat - ds.length) '0' ++ layout.whole
  else ds.take places.toNat ++ '.' :: ds.drop places.toNat

/-- Digits with a point after the first of them, and an exponent with its sign. -/
def scientific (ds : List Char) (places : Int) : List Char :=
  let e := places - 1
  let mantissa := match ds with
    | [] => []
    | [d] => [d]
    | d :: rest => d :: '.' :: rest
  mantissa ++ 'e' :: (if e < 0 then '-' else '+') :: digitsOf e.natAbs

/-- A finite magnitude as text. -/
def magnitudeText (layout : Layout) (x : Magnitude) : List Char :=
  if x.mantissa == 0 then '0' :: layout.whole
  else
    let d := (x.shortest layout.tie).strip 800
    let ds := digitsOf d.digits
    let places := d.exponent + ds.length
    if layout.positional places then positional layout ds places else scientific ds places

/-- The text of what the bits of a number say. -/
def readingText (layout : Layout) : Reading → List Char
  | .undefined => layout.undefined
  | .infinite negative =>
    (if negative && layout.signedInfinity then ['-'] else []) ++ layout.infinite
  | .finite negative x => (if negative then ['-'] else []) ++ magnitudeText layout x

/-- **A number as text.** -/
def render (layout : Layout) (x : Float) : String :=
  String.ofList (readingText layout (Reading.ofBits x.toBits))

end LintSuite.Decimal
