import LintSuite.Decimal.Nearest

/-!
# Reading a decimal

The numbers of the command line are decimals: a sign, digits with at most one point among or around
them, and an exponent.  The words `inf`, `infinity` and `nan` are numbers too, in any case.
-/

namespace LintSuite.Decimal

/-- Why a text is not a number. -/
inductive ReadingFault where
  /-- There is nothing to read. -/
  | empty
  /-- There is something else. -/
  | malformed
  deriving DecidableEq, Repr

/-- The text of the fault. -/
def ReadingFault.message : ReadingFault → String
  | .empty => "cannot parse float from empty string"
  | .malformed => "invalid float literal"

/-- The value of decimal digits. -/
def valueOf (ds : List Char) : Nat :=
  ds.foldl (fun n d => n * 10 + (d.toNat - '0'.toNat)) 0

/-- The exponent behind the digits: nothing, or a mark, a sign and digits. -/
def exponentOf? : List Char → Option Int
  | [] => some 0
  | c :: rest =>
    if c == 'e' || c == 'E' then
      let (negative, ds) := match rest with
        | '-' :: ds => (true, ds)
        | '+' :: ds => (false, ds)
        | ds => (false, ds)
      if ds.isEmpty || !ds.all Char.isDigit then none
      else some (if negative then -(valueOf ds : Int) else valueOf ds)
    else none

/-- Digits, a point, digits and an exponent. -/
def scaled? (cs : List Char) : Option Scaled :=
  let whole := cs.takeWhile Char.isDigit
  let (fraction, rest) := match cs.dropWhile Char.isDigit with
    | '.' :: rest => (rest.takeWhile Char.isDigit, rest.dropWhile Char.isDigit)
    | rest => ([], rest)
  if whole.isEmpty && fraction.isEmpty then none
  else (exponentOf? rest).map fun e => ⟨valueOf (whole ++ fraction), e - fraction.length⟩

/-- A number without its sign. -/
def unsigned? (negative : Bool) (cs : List Char) : Option Float :=
  let word := String.ofList (cs.map Char.toLower)
  let signed := fun bits : UInt64 =>
    Float.ofBits (if negative then bits ||| 0x8000000000000000 else bits)
  if word == "inf" || word == "infinity" then some (signed 0x7FF0000000000000)
  else if word == "nan" then some (signed 0x7FF8000000000000)
  else (scaled? cs).map (nearest negative)

/-- **Reading a decimal.** -/
def read (s : String) : Except ReadingFault Float :=
  match s.toList with
  | [] => .error .empty
  | '-' :: cs => ((unsigned? true cs).map .ok).getD (.error .malformed)
  | '+' :: cs => ((unsigned? false cs).map .ok).getD (.error .malformed)
  | cs => ((unsigned? false cs).map .ok).getD (.error .malformed)

end LintSuite.Decimal
