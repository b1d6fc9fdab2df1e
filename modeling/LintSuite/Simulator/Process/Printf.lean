import LintSuite.Simulator.Process.PrintfValue

/-!
# Formatted printing

Text is printed with its escapes replaced (`unescape`), or by a format whose directives take one
argument each (`printf`).  A format is used again as long as arguments are left and it takes any; an
argument that lacks is an empty text or zero.

What is printed is bytes, since an escape may name any byte.
-/

namespace LintSuite.Printf

open Text

/-- The value of some octal digits. -/
def octal (digits : List Char) : Nat :=
  digits.foldl (fun n c => n * 8 + (c.toNat - '0'.toNat)) 0

/-- Whether a character is an octal digit. -/
def isOctal (c : Char) : Bool := '0' ≤ c && c ≤ '7'

/-- The byte of an octal number. -/
def octalByte (digits : List Char) : UInt8 := UInt8.ofNat (octal digits)

/-- The bytes that single-letter escapes stand for. -/
def escapeLetters : List (Char × UInt8) :=
  [('\\', 92), ('a', 7), ('b', 8), ('e', 27), ('f', 12), ('n', 10), ('r', 13), ('t', 9), ('v', 11)]

/-- An escape behind its backslash: its byte and what follows it, or nothing if there is no such
escape. -/
def escape? (cs : List Char) : Option (UInt8 × List Char) :=
  match cs with
  | [] => none
  | c :: rest =>
    if isOctal c then
      let digits := (cs.take 3).takeWhile isOctal
      some (octalByte digits, cs.drop digits.length)
    else (escapeLetters.find? (·.1 == c)).map fun e => (e.2, rest)

/-- The bytes of a text with its escapes replaced, and whether it asks for no more output.  In a
text an octal number may have a zero in front of its three digits, and a `c` ends the output. -/
def unescapeFrom : Nat → List Char → List UInt8 × Bool
  | 0, _ => ([], false)
  | _ + 1, [] => ([], false)
  | _ + 1, '\\' :: 'c' :: _ => ([], true)
  | steps + 1, '\\' :: '0' :: rest =>
    let digits := (rest.take 3).takeWhile isOctal
    let (more, stop) := unescapeFrom steps (rest.drop digits.length)
    (octalByte digits :: more, stop)
  | steps + 1, c :: rest =>
    match if c = '\\' then escape? rest else none with
    | some (b, rest) =>
      let (more, stop) := unescapeFrom steps rest
      (b :: more, stop)
    | none =>
      let (more, stop) := unescapeFrom steps rest
      (Octets.ofChars [c] ++ more, stop)

/-- **The bytes of a text** with its escapes replaced, and whether it asks for no more output. -/
def unescape (cs : List Char) : List UInt8 × Bool :=
  unescapeFrom (cs.length + 1) cs

/-! ### Directives -/

/-- A directive without its letter. -/
structure Directive where
  /-- Its flags. -/
  flags : List Char := []
  /-- The least number of bytes. -/
  width : Nat := 0
  /-- The precision. -/
  precision : Option Nat := none

namespace Directive

/-- Bytes filled up with blanks to the width. -/
def padded (d : Directive) (bytes : List UInt8) : List UInt8 :=
  let blanks := List.replicate (d.width - bytes.length) 32
  if d.flags.contains '-' then bytes ++ blanks else blanks ++ bytes

/-- A text, of which the precision keeps a number of bytes. -/
def ofText (d : Directive) (bytes : List UInt8) : List UInt8 :=
  d.padded (match d.precision with | some n => bytes.take n | none => bytes)

/-- The digits of a number, with zeros in front up to the precision, or the width if a zero flag
asks for it, behind a sign. -/
def ofDigits (d : Directive) (sign digits : List Char) : List UInt8 :=
  let least := match d.precision with
    | some n => n
    | none =>
      if d.flags.contains '0' && !d.flags.contains '-' then d.width - sign.length else 0
  let digits := if digits = ['0'] && d.precision = some 0 then [] else digits
  d.padded (Octets.ofChars (sign ++ List.replicate (least - digits.length) '0' ++ digits))

/-- A signed number. -/
def ofInt (d : Directive) (n : Int) : List UInt8 :=
  let sign :=
    if n < 0 then ['-'] else if d.flags.contains '+' then ['+']
    else if d.flags.contains ' ' then [' '] else []
  d.ofDigits sign (Nat.toDigits 10 n.natAbs)

/-- A number with a point, written by one of the ways to write a magnitude, which gives what stands
in front of zeros and what stands behind them. -/
def ofDecimal (d : Directive) (upper : Bool)
    (write : Decimal.Magnitude → Option Nat → List Char × List Char) (x : Float) : List UInt8 :=
  let (negative, (front, cs), finite) := match Decimal.Reading.ofBits x.toBits with
    | .undefined => (x.toBits >>> 63 == 1, ([], ['n', 'a', 'n']), false)
    | .infinite negative => (negative, ([], ['i', 'n', 'f']), false)
    | .finite negative m => (negative, write m d.precision, true)
  let sign :=
    (if negative then ['-'] else if d.flags.contains '+' then ['+']
    else if d.flags.contains ' ' then [' '] else []) ++ front
  let least := if finite && d.flags.contains '0' && !d.flags.contains '-' then d.width - sign.length
    else 0
  let text := sign ++ List.replicate (least - cs.length) '0' ++ cs
  d.padded (Octets.ofChars (if upper then text.map Char.toUpper else text))

/-- A number in a base, as a word of 64 bits. -/
def ofWord (d : Directive) (base : Nat) (upper : Bool) (n : Int) : List UInt8 :=
  let value := (n % UInt64.size).toNat
  let digits := Nat.toDigits base value
  let digits := if upper then digits.map Char.toUpper else digits
  let mark :=
    if d.flags.contains '#' && value != 0 then
      if base = 16 then ['0', if upper then 'X' else 'x'] else if base = 8 then ['0'] else []
    else []
  d.ofDigits mark digits

end Directive

/-- What a use of a format comes to. -/
structure Printed where
  /-- The bytes, the latest first. -/
  bytes : List UInt8 := []
  /-- The arguments that are left. -/
  arguments : List String
  /-- What is wrong with the arguments. -/
  faults : List Fault := []
  /-- Whether the output ends here. -/
  stopped : Bool := false

namespace Printed

/-- More bytes. -/
def add (p : Printed) (bytes : List UInt8) : Printed :=
  { p with bytes := bytes.reverse ++ p.bytes }

/-- The next argument, and what is left. -/
def next (p : Printed) : String × Printed :=
  (p.arguments.headD "", { p with arguments := p.arguments.tail })

/-- The next argument as a whole number. -/
def nextNumber (signed : Bool) (p : Printed) : Int × Printed :=
  let (text, p) := p.next
  let (n, fault) := numberOf signed text
  (n, { p with faults := p.faults ++ fault.toList })

/-- The next argument as a number with a point. -/
def nextDecimal (p : Printed) : Float × Printed :=
  let (text, p) := p.next
  let (x, fault) := decimalOf text
  (x, { p with faults := p.faults ++ fault.toList })

/-- A number with a point, which stands in front of its power if it has none. -/
def withPoint (cs : List Char) : List Char :=
  if cs.contains '.' then cs
  else
    let isPower := fun (c : Char) => c = 'e' || c = 'p'
    cs.takeWhile (!isPower ·) ++ '.' :: cs.dropWhile (!isPower ·)

/-- The way to write a magnitude that a small letter stands for; `pointed` asks for a point in any
case. -/
def decimalWriting? (letter : Char) (pointed : Bool) :
    Option (Decimal.Magnitude → Option Nat → List Char × List Char) :=
  let plain := fun (write : Decimal.Magnitude → Nat → List Char) (m : Decimal.Magnitude)
      (n : Option Nat) =>
    (([] : List Char), if pointed then withPoint (write m (n.getD 6)) else write m (n.getD 6))
  match letter with
  | 'f' => some (plain Decimal.Magnitude.fixed)
  | 'e' => some (plain Decimal.Magnitude.scientific)
  | 'g' => some (plain fun m => m.general (!pointed))
  | 'a' => some fun m n =>
    (['0', 'x'], if pointed then withPoint (m.hexadecimal n) else m.hexadecimal n)
  | _ => none

/-- **A directive**, by its letter, which stands behind a text. -/
def apply (p : Printed) (d : Directive) (text : List Char) (letter : Char) : Printed :=
  if letter = 's' then
    let (text, p) := p.next
    p.add (d.ofText (Octets.ofString text))
  else if letter = 'b' then
    let (text, p) := p.next
    let (bytes, stop) := unescape text.toList
    { p.add (d.ofText bytes) with stopped := stop }
  else if letter = 'c' then
    let (text, p) := p.next
    p.add (d.padded [(Octets.ofString text).headD 0])
  else if letter = 'd' || letter = 'i' then
    let (n, p) := p.nextNumber true
    p.add (d.ofInt n)
  else if letter = 'u' || letter = 'o' || letter = 'x' || letter = 'X' then
    let (n, p) := p.nextNumber false
    let base := if letter = 'u' then 10 else if letter = 'o' then 8 else 16
    p.add (d.ofWord base (letter = 'X') n)
  else match decimalWriting? letter.toLower (d.flags.contains '#') with
    | some write =>
      let (x, p) := p.nextDecimal
      p.add (d.ofDecimal letter.isUpper write x)
    | none =>
      { p with faults := p.faults ++ [.directive (String.ofList ('%' :: text ++ [letter]))]
               stopped := true }

/-- A number of a directive, which may be taken from the arguments, and what follows it. -/
def measure (p : Printed) (cs : List Char) : Option Int × Printed × List Char :=
  match cs with
  | '*' :: rest =>
    let (n, p) := p.nextNumber true
    (some n, p, rest)
  | _ =>
    let digits := cs.takeWhile Char.isDigit
    let n := digits.foldl (fun n c => n * 10 + digitValue c) 0
    (if digits.isEmpty then none else some (n : Nat), p, cs.drop digits.length)

/-- A directive behind its percent sign: its parts, and its letter with what follows it. -/
def directive (p : Printed) (cs : List Char) : Directive × Printed × List Char :=
  let isFlag := ['#', '-', '+', ' ', '0'].contains
  let (width, p, rest) := p.measure (cs.dropWhile isFlag)
  let flags := cs.takeWhile isFlag ++ if width.any (· < 0) then ['-'] else []
  let width := (width.map Int.natAbs).getD 0
  match rest with
  | '.' :: rest =>
    let (precision, p, rest) := p.measure rest
    (⟨flags, width, some (precision.getD 0).toNat⟩, p, rest)
  | _ => (⟨flags, width, none⟩, p, rest)

/-- One use of a format. -/
def use : Nat → List Char → Printed → Printed
  | 0, _, p => p
  | _ + 1, [], p => p
  | steps + 1, c :: rest, p =>
    if p.stopped then p
    else if c = '\\' then
      match escape? rest with
      | some (b, rest) => use steps rest (p.add [b])
      | none => use steps rest (p.add [92])
    else if c = '%' then
      match rest with
      | '%' :: rest => use steps rest (p.add [37])
      | _ =>
        let (d, p, left) := p.directive rest
        match left with
        | letter :: more =>
          use steps more (p.apply d (rest.take (rest.length - left.length)) letter)
        | [] => { p with faults := p.faults ++ [.unfinished], stopped := true }
    else use steps rest (p.add (Octets.ofChars [c]))

/-- A format used as long as it takes arguments that are left. -/
def useAll (format : List Char) : Nat → Printed → Printed
  | 0, p => p
  | rounds + 1, p =>
    let after := use (format.length + 1) format p
    if after.stopped || after.arguments.isEmpty || after.arguments.length = p.arguments.length then
      after
    else useAll format rounds after

end Printed

/-- **Printing by a format**: the bytes, and what is wrong with the arguments. -/
def printf (format : String) (arguments : List String) : List UInt8 × List Fault :=
  let p := Printed.useAll format.toList (arguments.length + 1) { arguments }
  (p.bytes.reverse, p.faults)

/-- **Printing texts** with blanks between them and their escapes replaced, and a line feed unless
one of them ends the output. -/
def echo (texts : List String) (newline : Bool) : List UInt8 :=
  let (bytes, stop) := unescape (String.intercalate " " texts).toList
  bytes ++ if stop || !newline then [] else [10]

end LintSuite.Printf
