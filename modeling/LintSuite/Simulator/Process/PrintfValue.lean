import LintSuite.Simulator.Decimal.Places
import LintSuite.Decimal.Reading
import LintSuite.Simulator.Text.Numeral
import LintSuite.Simulator.Text.ShellQuoted

/-!
# Numbers that arguments of formats stand for

An argument of a format stands for the number at its front, or, behind a quote, for the code of a
character.  Whatever follows the number is a fault, and so is a number that is out of range; a value
there is all the same (`numberOf`, `decimalOf`).
-/

namespace LintSuite.Printf

open Text

/-- The value of a digit in bases up to sixteen. -/
def digitValue (c : Char) : Nat :=
  if c.isDigit then c.toNat - '0'.toNat else c.toLower.toNat - 'a'.toNat + 10

/-- Whether a character is a digit of a base. -/
def isDigitOf (base : Nat) (c : Char) : Bool :=
  (c.isDigit || ('a' ≤ c.toLower && c.toLower ≤ 'f')) && digitValue c < base

/-- The number at the front of a text, in decimal, octal behind a zero, or hexadecimal behind `0x`,
and what follows it. -/
def leadingNatural (cs : List Char) : Nat × List Char :=
  let (base, cs) := match cs with
    | '0' :: x :: d :: rest =>
      if (x = 'x' || x = 'X') && isDigitOf 16 d then (16, d :: rest) else (8, cs)
    | '0' :: _ => (8, cs)
    | _ => (10, cs)
  ((cs.takeWhile (isDigitOf base)).foldl (fun n c => n * base + digitValue c) 0,
    cs.dropWhile (isDigitOf base))

/-- What is wrong with a format or its arguments. -/
inductive Fault where
  /-- An argument is no number. -/
  | notNumber (text : String)
  /-- More than a number stands in an argument. -/
  | partly (text : String)
  /-- A number is too great, or too small. -/
  | range (text : String)
  /-- There is no such directive. -/
  | directive (text : String)
  /-- A directive lacks its letter. -/
  | unfinished
  deriving DecidableEq, Repr

/-- Whether a fault is one of the format. -/
def Fault.isDirective : Fault → Bool
  | .directive _ => true
  | .unfinished => true
  | _ => false

/-- The text of a fault, in the words of a shell. -/
def Fault.message : Fault → String
  | .notNumber text => text ++ ": expected numeric value"
  | .partly text => text ++ ": not completely converted"
  | .range text => text ++ ": Numerical result out of range"
  | .directive text => text ++ ": invalid directive"
  | .unfinished => "missing format character"

/-- The text of a fault, in the words of a program of its own. -/
def Fault.programMessage : Fault → String
  | .notNumber text => ShellQuoted.plain text ++ ": expected a numeric value"
  | .partly text => ShellQuoted.plain text ++ ": value not completely converted"
  | .range text => ShellQuoted.plain text ++ ": Numerical result out of range"
  | .directive text => text ++ ": invalid conversion specification"
  | .unfinished => "%: invalid conversion specification"

/-- A sign at the front of some characters, negative or not, and what follows it. -/
def leadingSign (cs : List Char) : Bool × List Char :=
  match cs with
  | '-' :: rest => (true, rest)
  | '+' :: rest => (false, rest)
  | _ => (false, cs)

/-- The code of the character that a quote at the front of a text stands in front of. -/
def quotedCode? (text : String) : Option Nat :=
  match text.toList with
  | '"' :: rest => some ((rest.head?.map Char.toNat).getD 0)
  | '\'' :: rest => some ((rest.head?.map Char.toNat).getD 0)
  | _ => none

/-- What is wrong with an argument whose number some characters follow. -/
def remainder? (text : String) (rest : List Char) (isNumber : Bool) : Option Fault :=
  if text.isEmpty || (isNumber && rest.isEmpty) then none
  else if isNumber then some (.partly text) else some (.notNumber text)

/-- **The whole number that an argument stands for**, between two bounds, and what is wrong with
it.  One that is out of bounds counts as the nearest one; without a sign the negative of a number
stands for the word that is congruent to it. -/
def numberOf (signed : Bool) (text : String) : Int × Option Fault :=
  match quotedCode? text with
  | some code => (code, none)
  | none =>
    let (negative, digits) := leadingSign (text.toList.dropWhile Numeral.isSpace)
    let (n, rest) := leadingNatural digits
    let fault := remainder? text rest (rest.length < digits.length)
    let greatest : Nat :=
      if signed then (if negative then 0x8000000000000000 else 0x7FFFFFFFFFFFFFFF)
      else 0xFFFFFFFFFFFFFFFF
    let size : Int := if n ≤ greatest then n else greatest
    (if negative && (signed || n ≤ greatest) then -size else size,
      if n ≤ greatest then fault else fault <|> some (.range text))

/-- A number in sixteenths and a power of two at the front of some characters, behind `0x`: what is
scaled, the power of two, and what follows. -/
def leadingHex? (cs : List Char) : Option (Nat × Int × List Char) :=
  let value := fun (ds : List Char) => ds.foldl (fun n c => n * 16 + digitValue c) 0
  let whole := cs.takeWhile (isDigitOf 16)
  let (part, rest) := match cs.drop whole.length with
    | '.' :: rest => (rest.takeWhile (isDigitOf 16), rest.dropWhile (isDigitOf 16))
    | rest => ([], rest)
  if whole.isEmpty && part.isEmpty then none
  else
    let (power, rest) : Int × List Char := match rest with
      | p :: more =>
        let (negative, ds) := leadingSign more
        let digits := ds.takeWhile Char.isDigit
        if (p = 'p' || p = 'P') && !digits.isEmpty then
          (if negative then -(Numeral.ofDigits digits : Int) else Numeral.ofDigits digits,
            ds.drop digits.length)
        else (0, rest)
      | [] => (0, [])
    some (value (whole ++ part), power - 4 * (part.length : Int), rest)

/-- The number that is nearest to one scaled by a power of two, which may be out of range. -/
def nearestBinary (n : Nat) (power : Int) : Float :=
  let power := max (-3000) (min power 3000)
  Float.ofBits (Decimal.nearestBits (n * Decimal.twoTo power.toNat)
    (Decimal.twoTo (-power).toNat))

/-- The longest front of some characters that is a decimal, and what follows it. -/
def leadingDecimal? (cs : List Char) : Option (Float × List Char) :=
  (List.range cs.length).reverse.findSome? fun n =>
    (Decimal.unsigned? false (cs.take (n + 1))).map (·, cs.drop (n + 1))

/-- The number at the front of some characters, and what follows it. -/
def leadingNumber? (cs : List Char) : Option (Float × List Char) :=
  match cs with
  | '0' :: x :: rest =>
    if x = 'x' || x = 'X' then
      match leadingHex? rest with
      | some (n, power, rest) => some (nearestBinary n power, rest)
      | none => some (0, x :: rest)
    else leadingDecimal? cs
  | _ => leadingDecimal? cs

/-- Whether the number of some characters is too great, or so small that it is not exact. -/
def isExtreme (x : Float) (cs : List Char) : Bool :=
  let digits := (cs.takeWhile fun c => c != 'e' && c != 'E' && c != 'p' && c != 'P').filter
    fun c => c.isDigit && c != '0'
  match Decimal.Reading.ofBits x.toBits with
  | .undefined => false
  | .infinite _ => cs.head?.any fun c => c.isDigit || c = '.'
  | .finite _ m => m.mantissa < Decimal.twoTo 52 && !digits.isEmpty

/-- **The number that an argument stands for**, and what is wrong with it. -/
def decimalOf (text : String) : Float × Option Fault :=
  match quotedCode? text with
  | some code => (Float.ofNat code, none)
  | none =>
    let (negative, cs) := leadingSign (text.toList.dropWhile Numeral.isSpace)
    match leadingNumber? cs with
    | none => (0, remainder? text cs false)
    | some (x, rest) =>
      let fault := remainder? text rest true
      (if negative then -x else x,
        if isExtreme x cs then fault <|> some (.range text) else fault)

end LintSuite.Printf
