/-!
# Whole numbers of the command line

A whole number is a sign, if any, and decimal digits.  It is read into a range, digit by digit, so
that a number that leaves the range is refused at that digit, even if something that is no digit
follows.
-/

namespace LintSuite.WholeNumber

/-- Why a text is no whole number of a range. -/
inductive Fault where
  /-- There is nothing to read. -/
  | empty
  /-- There is something that is no digit. -/
  | notDigit
  /-- The number lies above the range. -/
  | tooLarge
  /-- The number lies below the range. -/
  | tooSmall
  deriving DecidableEq, Repr

/-- The text of the fault. -/
def Fault.message : Fault → String
  | .empty => "cannot parse integer from empty string"
  | .notDigit => "invalid digit found in string"
  | .tooLarge => "number too large to fit in target type"
  | .tooSmall => "number too small to fit in target type"

/-- Reading digits behind a value, up to a greatest value. -/
def readDigits (greatest : Nat) (overflow : Fault) (value : Nat) : List Char → Except Fault Nat
  | [] => .ok value
  | c :: rest =>
    if !c.isDigit then .error .notDigit
    else
      let more := value * 10 + (c.toNat - '0'.toNat)
      if greatest < more then .error overflow else readDigits greatest overflow more rest

/-- Reading digits, of which there is at least one. -/
def readSome (greatest : Nat) (overflow : Fault) : List Char → Except Fault Nat
  | [] => .error .notDigit
  | cs => readDigits greatest overflow 0 cs

/-- **Reading a number that is not negative**, up to a greatest one. -/
def readNatural (greatest : Nat) (text : String) : Except Fault Nat :=
  match text.toList with
  | [] => .error .empty
  | '+' :: cs => readSome greatest .tooLarge cs
  | cs => readSome greatest .tooLarge cs

/-- **Reading a number with a sign**, of sixty-four bits. -/
def readSigned (text : String) : Except Fault Int :=
  match text.toList with
  | [] => .error .empty
  | '+' :: cs => (readSome 0x7FFFFFFFFFFFFFFF .tooLarge cs).map (fun n => (n : Int))
  | '-' :: cs => (readSome 0x8000000000000000 .tooSmall cs).map (fun n => -(n : Int))
  | cs => (readSome 0x7FFFFFFFFFFFFFFF .tooLarge cs).map (fun n => (n : Int))

end LintSuite.WholeNumber
