import LintSuite.Simulator.Process.Excerpt

/-!
# Copying by blocks

`dd` reads a file block by block and writes what it has read, and tells in the end how many blocks
were whole and how many were not.  It is told what to do by operands, each a key and its value
(`BlockCopy.read`); the blocks that are skipped, and those that are counted, are as large as those
that are read.
-/

namespace LintSuite

open Host Text

/-- **A copy by blocks.** -/
structure BlockCopy where
  /-- The file that is read, if it is not standard input. -/
  source : Option String := none
  /-- The file that is written, if it is not standard output. -/
  target : Option String := none
  /-- How many bytes are read at a time. -/
  input : Nat := 512
  /-- How many bytes are written at a time. -/
  output : Nat := 512
  /-- How many blocks are read, if not all. -/
  count : Option Nat := none
  /-- How many blocks of the source are passed over. -/
  skipped : Nat := 0
  /-- How many blocks of the target are left as they are. -/
  kept : Nat := 0
  /-- What is done to the bytes, and to the target. -/
  conversions : List String := []
  /-- How much is told in the end. -/
  report : String := "progress"

namespace BlockCopy

/-- What is wrong with an operand. -/
inductive Fault where
  /-- There is no such key. -/
  | operand (text : String)
  /-- A value is no number. -/
  | number (text : String)
  /-- There is no such conversion. -/
  | conversion (text : String)
  /-- There is no such kind of report. -/
  | report (text : String)

/-- The text of a fault, and whether it comes with a hint where to find help. -/
def Fault.message : Fault → String × Bool
  | .operand text => ("unrecognized operand " ++ ShellQuoted.plain text, true)
  | .number text => ("invalid number: " ++ ShellQuoted.plain text, false)
  | .conversion text => ("invalid conversion: " ++ ShellQuoted.plain text, true)
  | .report text => ("invalid status level: " ++ ShellQuoted.plain text, true)

/-- The number that a text spells: digits and a unit, or several such numbers multiplied. -/
def number? (text : String) : Option Nat :=
  (text.splitOn "x").foldl (fun product factor =>
    let digits := factor.toList.takeWhile Char.isDigit
    let unit := match factor.toList.drop digits.length with
      | ['c'] => some 1
      | ['w'] => some 2
      | ending => Utility.multiplier? ending
    if digits.isEmpty then none
    else product.bind fun n => unit.map fun u =>
      n * u * digits.foldl (fun n c => n * 10 + Printf.digitValue c) 0) (some 1)

/-- The conversions there are. -/
def conversionNames : List String := ["lcase", "ucase", "swab", "sync", "notrunc", "noerror",
  "nocreat", "excl", "fsync", "fdatasync", "sparse"]

/-- The copy with one more operand. -/
def readOperand (c : BlockCopy) (operand : String) : Except Fault BlockCopy :=
  let key := (operand.toList.takeWhile (· != '='))
  let value := String.ofList (operand.toList.drop (key.length + 1))
  let amount : Except Fault Nat := match number? value with
    | some n => .ok n
    | none => .error (.number value)
  let size : Except Fault Nat := do
    let n ← amount
    if n = 0 then .error (.number value) else .ok n
  match String.ofList key with
  | "if" => .ok { c with source := some value }
  | "of" => .ok { c with target := some value }
  | "bs" => do
    let n ← size
    .ok { c with input := n, output := n }
  | "ibs" => do .ok { c with input := ← size }
  | "obs" => do .ok { c with output := ← size }
  | "count" => do .ok { c with count := some (← amount) }
  | "skip" | "iseek" => do .ok { c with skipped := ← amount }
  | "seek" | "oseek" => do .ok { c with kept := ← amount }
  | "conv" =>
    let names := value.splitOn ","
    match names.find? (!conversionNames.contains ·) with
    | some bad => .error (.conversion bad)
    | none => .ok { c with conversions := c.conversions ++ names }
  | "status" =>
    if ["none", "noxfer", "progress"].contains value then .ok { c with report := value }
    else .error (.report value)
  | "iflag" | "oflag" => .ok c
  | _ => .error (.operand operand)

/-- **The copy that operands describe.** -/
def read (operands : List String) : Except Fault BlockCopy :=
  operands.foldlM readOperand {}

/-- Every two bytes with their places exchanged. -/
def swapped : List UInt8 → List UInt8
  | a :: b :: rest => b :: a :: swapped rest
  | rest => rest

/-- The bytes as they are written. -/
def converted (c : BlockCopy) (bytes : List UInt8) : List UInt8 :=
  let has := c.conversions.contains
  let bytes := if has "swab" then swapped bytes else bytes
  let lacking := (c.input - bytes.length % c.input) % c.input
  let bytes := if has "sync" then bytes ++ List.replicate lacking 0 else bytes
  let upper := fun (b : UInt8) => if 97 ≤ b && b ≤ 122 then b - 32 else b
  if has "lcase" then bytes.map Octets.lower
  else if has "ucase" then bytes.map upper else bytes

/-- How many blocks of a size some bytes fill, and whether some are left over. -/
def blocks (size bytes : Nat) : String :=
  toString (bytes / size) ++ "+" ++ if bytes % size = 0 then "0" else "1"

/-- What is told of a copy in the end, by the numbers of the bytes read and written. -/
def told (c : BlockCopy) (taken given : Nat) : String :=
  blocks c.input taken ++ " records in\n" ++ blocks c.output given ++ " records out\n" ++
    if c.report == "noxfer" then "" else toString given ++ " bytes copied, 0 s, Infinity B/s\n"

/-- The part of a feed that is read. -/
def portion (c : BlockCopy) (f : Feed) : Feed.Portion :=
  match c.count with
  | some n => f.takeOnly ((c.skipped + n) * c.input)
  | none => f.takeAll

/-- What is in the target, up to where it is written. -/
def before (c : BlockCopy) (content : List UInt8) : List UInt8 :=
  let size := c.kept * c.output
  content.take size ++ List.replicate (size - content.length) 0

/-- What is in the target behind what is written. -/
def after (c : BlockCopy) (content : List UInt8) (written : Nat) : List UInt8 :=
  if c.conversions.contains "notrunc" then content.drop (c.kept * c.output + written) else []

end BlockCopy

namespace Utility

/-- The process after a copy has been written. -/
def writeCopy (c : BlockCopy) (bytes : List UInt8) (p : Process) : Process :=
  match c.target with
  | none => p.emit 1 bytes
  | some file =>
    let content := (p.files.read (Octets.path file)).toOption.getD []
    match p.files.write (Octets.path file) (c.before content ++ bytes ++ c.after content bytes.length) with
    | .ok files => { p with files }
    | .error e => p.failed ("failed to open " ++ ShellQuoted.always file ++ ": " ++ e.reason) 1

/-- Copying by blocks. -/
def dd : Utility := reading {} 1 fun a p =>
  match BlockCopy.read a.operands with
  | .error e =>
    let (text, hinted) := e.message
    if hinted then p.misused text 1 else p.failed text 1
  | .ok c =>
    match p.readFile c.portion (c.source.getD "-") with
    | .error e =>
      let file := c.source.getD "standard input"
      if e = .isDirectory then
        (p.failed ("error reading " ++ ShellQuoted.always file ++ ": " ++ e.reason) 1).emit 2
          (Octets.ofString (if c.report == "none" then "" else c.told 0 0))
      else p.failed ("failed to open " ++ ShellQuoted.always file ++ ": " ++ e.reason) 1
    | .ok (taken, p) =>
      let bytes := taken.bytes.drop (c.skipped * c.input)
      let written := c.converted bytes
      let p := writeCopy c written (p.withStatus 0)
      if p.status != 0 || c.report == "none" then p
      else p.emit 2 (Octets.ofString (c.told bytes.length written.length))

end Utility

end LintSuite
