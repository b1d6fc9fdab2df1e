import LintSuite.Simulator.Process.Arguments
import LintSuite.Simulator.Process.Condition
import LintSuite.Simulator.Text.ShellQuoted

/-!
# Utilities

A utility takes arguments and changes the process it runs in: it prints, reads what there is to
read, lets time pass, and leaves a state.  The same utility may be a program of its own or part of a
shell; the shell puts the place in its script before a complaint (`Process.object`).

Here are the utilities that need neither files nor other programs.
-/

namespace LintSuite

open Host Text

/-- A utility: what its arguments make it do to a process. -/
abbrev Utility := List String → Process → Process

namespace Process

/-- Complaining about a utility, in the name of the program that it is, or of the script that uses
it. -/
def object (p : Process) (utility text : String) : Process :=
  if p.line = 0 then p.complain (p.name ++ ": " ++ text) else p.warn (utility ++ ": " ++ text)

/-- Complaining as a program about its arguments, with a hint where to find help. -/
def misused (p : Process) (text : String) (status : Nat) : Process :=
  ((p.complain (p.name ++ ": " ++ text)).complain
    ("Try '" ++ p.name ++ " --help' for more information.")).withStatus status

/-- Complaining as a program about something that failed. -/
def failed (p : Process) (text : String) (status : Nat) : Process :=
  (p.complain (p.name ++ ": " ++ text)).withStatus status

end Process

/-- What is wrong, without its number. -/
def Host.IoError.reason (e : IoError) : String :=
  (e.message.splitOn " (os error").headD ""

namespace Utility

/-- A utility that takes its arguments apart, and ends in a state if that fails. -/
def reading (v : Vocabulary) (status : Nat) (f : Arguments → Process → Process) : Utility :=
  fun arguments p =>
    match Arguments.read v arguments with
    | .ok a => f a p
    | .error e => p.misused e.message status

/-- A utility that leaves a state and does nothing else. -/
def leaving (status : Nat) : Utility := fun _ p => p.withStatus status

/-! ### Printing -/

/-- Printing arguments with blanks between them. -/
def echo : Utility := fun arguments p =>
  let (newline, texts) := match arguments with
    | "-n" :: rest => (false, rest)
    | _ => (true, arguments)
  (p.emit 1 (Printf.echo texts newline)).withStatus 0

/-- Whether an argument consists of options for printing. -/
def isEchoOption (a : String) : Bool :=
  match a.toList with
  | '-' :: c :: cs => (c :: cs).all ['n', 'e', 'E'].contains
  | _ => false

/-- Printing arguments, as they are unless an option asks for escapes. -/
def echoPlain : Utility := fun arguments p =>
  let letters := (arguments.takeWhile isEchoOption).flatMap (·.toList.tail)
  let texts := arguments.dropWhile isEchoOption
  let newline := !letters.contains 'n'
  if (letters.filter (· != 'n')).getLast? = some 'e' then
    (p.emit 1 (Printf.echo texts newline)).withStatus 0
  else (p.print (String.intercalate " " texts ++ if newline then "\n" else "")).withStatus 0

/-- Printing by a format.  What is wrong with it is said before anything is printed. -/
def printf (word : Printf.Fault → String) (state : List Printf.Fault → Nat)
    (missing : Process → Process) : Utility := fun arguments p =>
  match arguments with
  | [] => missing p
  | format :: rest =>
    let (bytes, faults) := Printf.printf format rest
    let told := faults.foldl (fun p f => p.object "printf" (word f)) p
    (told.emit 1 bytes).withStatus (state faults)

/-- Printing by a format, as a program of its own. -/
def printfProgram : Utility := fun arguments p =>
  printf Printf.Fault.programMessage (fun faults => if faults.isEmpty then 0 else 1)
    (fun p => p.misused "missing operand" 1)
    (if arguments.head? = some "--" then arguments.tail else arguments) p

/-- Printing the working directory. -/
def pwd : Utility := fun _ p => (p.print (Octets.ofPath p.files.workingDir ++ "\n")).withStatus 0

/-- Printing the values of variables, or all variables. -/
def printenv : Utility := fun names p =>
  if names.isEmpty then
    (p.print (String.join (p.vars.map fun v => v.name ++ "=" ++ v.value ++ "\n"))).withStatus 0
  else names.foldl (fun p name =>
    match p.var? name with
    | some value => p.print (value ++ "\n")
    | none => p.withStatus 1) (p.withStatus 0)

/-- How many bytes are printed where printing has no end: more than is ever read of them. -/
def endlessSize : Nat := 1048576

/-- Printing a line again and again, without end. -/
def yes : Utility := fun words p =>
  let line := Octets.ofString
    ((String.intercalate " " (if words.isEmpty then ["y"] else words)) ++ "\n")
  let copies := endlessSize / line.length + 1
  { p.emit 1 ((List.replicate copies line).flatten) with flow := .overdue }

/-- Printing the name of the system. -/
def uname : Utility := fun _ p => (p.print "Linux\n").withStatus 0

/-! ### Conditions -/

/-- Checking a condition. -/
def test (name : String) : Utility := fun words p =>
  match Condition.holds p.files words with
  | .ok b => p.withStatus (if b then 0 else 1)
  | .error e => (p.object name e.message).withStatus 2

/-- Checking a condition between brackets. -/
def bracket : Utility := fun words p =>
  if words.getLast? = some "]" then test "[" words.dropLast p
  else (p.object "[" "missing ]").withStatus 2

/-! ### Names -/

/-- A text without the slashes at its end. -/
def withoutSlashes (cs : List Char) : List Char :=
  (cs.reverse.dropWhile (· == '/')).reverse

/-- The last name of a path. -/
def lastName (path : String) : String :=
  let cs := withoutSlashes path.toList
  if cs.isEmpty then (if path.isEmpty then "" else "/")
  else String.ofList (cs.reverse.takeWhile (· != '/')).reverse

/-- A name without an ending, unless nothing would be left. -/
def withoutEnding (ending name : String) : String :=
  let cs := name.toList
  let stem := cs.take (cs.length - ending.length)
  if !stem.isEmpty && cs.drop stem.length == ending.toList then String.ofList stem else name

/-- The path without its last name. -/
def directoryName (path : String) : String :=
  let cs := withoutSlashes path.toList
  if cs.isEmpty then (if path.isEmpty then "." else "/")
  else
    let parent := cs.reverse.dropWhile (· != '/')
    if parent.isEmpty then "."
    else
      let parent := withoutSlashes parent.reverse
      if parent.isEmpty then "/" else String.ofList parent

/-- Printing the last names of paths. -/
def basename : Utility :=
  reading { flags := ['a', 'z'], valued := ['s'], words := [("multiple", 'a'), ("suffix", 's')],
            mixed := false } 1 fun a p =>
    let name := fun (ending path : String) => withoutEnding ending (lastName path) ++ "\n"
    match a.operands with
    | [] => p.misused "missing operand" 1
    | path :: rest =>
      if a.has 'a' || a.has 's' then
        (p.print (String.join (a.operands.map (name ((a.value? 's').getD ""))))).withStatus 0
      else match rest with
        | [] => (p.print (name "" path)).withStatus 0
        | [ending] => (p.print (name ending path)).withStatus 0
        | _ :: extra :: _ => p.misused ("extra operand " ++ ShellQuoted.plain extra) 1

/-- Printing paths without their last names. -/
def dirname : Utility :=
  reading { flags := ['z'] } 1 fun a p =>
    if a.operands.isEmpty then p.misused "missing operand" 1
    else (p.print (String.join (a.operands.map (directoryName · ++ "\n")))).withStatus 0

/-! ### Time and numbers -/

/-- The span that a text spells, in microseconds: a decimal number and a unit. -/
def span? (text : String) : Option Nat :=
  let cs := text.toList
  let whole := cs.takeWhile Char.isDigit
  let rest := cs.drop whole.length
  let (part, rest) := match rest with
    | '.' :: more => (more.takeWhile Char.isDigit, more.dropWhile Char.isDigit)
    | _ => ([], rest)
  let unit := match rest with
    | [] | ['s'] => some 1
    | ['m'] => some 60
    | ['h'] => some 3600
    | ['d'] => some 86400
    | _ => none
  let value := (whole ++ part).foldl (fun n c => n * 10 + Printf.digitValue c) 0
  if whole.isEmpty && part.isEmpty then none
  else unit.map fun u => value * u * 1000000 / Decimal.tenTo part.length

/-- Letting time pass. -/
def sleep : Utility := reading {} 1 fun a p =>
  match a.operands.find? fun s => (span? s).isNone with
  | some bad => p.misused ("invalid time interval " ++ ShellQuoted.plain bad) 1
  | none =>
    if a.operands.isEmpty then p.misused "missing operand" 1
    else (p.pass ((a.operands.filterMap span?).foldl (· + ·) 0)).withStatus 0

/-- The number that a decimal spells in units of its last place, and the number of its places. -/
def placed? (text : String) : Option (Int × Nat) :=
  let (negative, cs) := match text.toList with
    | '-' :: cs => (true, cs)
    | '+' :: cs => (false, cs)
    | cs => (false, cs)
  match Decimal.scaled? cs with
  | some ⟨digits, exponent⟩ =>
    let n : Int := digits * Decimal.tenTo exponent.toNat
    some (if negative then -n else n, (-exponent).toNat)
  | none => none

/-- A number in units of its last place, with zeros in front to fill a width. -/
def paddedNumber (width places : Nat) (n : Int) : String :=
  let digits := Decimal.pointed places n.natAbs
  let sign := if n < 0 then ['-'] else []
  String.ofList (sign ++ List.replicate (width - sign.length - digits.length) '0' ++ digits)

/-- The arguments of a count: what stands between its numbers, whether they are of one width, and
the rest. -/
def countOptions : List String → String × Bool × List String
  | "-w" :: rest =>
    let (between, _, rest) := countOptions rest
    (between, true, rest)
  | "-s" :: separator :: rest =>
    let (_, wide, rest) := countOptions rest
    (separator, wide, rest)
  | a :: rest =>
    match a.toList with
    | '-' :: 's' :: separator =>
      let (_, wide, rest) := countOptions rest
      (String.ofList separator, wide, rest)
    | _ => ("\n", false, a :: rest)
  | [] => ("\n", false, [])

/-- Counting from one number to another. -/
def seq : Utility := fun arguments p =>
  let (between, wide, words) := countOptions arguments
  let count := fun (first step last : Int × Nat) =>
    let places := max first.2 step.2
    let unit := max places last.2
    let scaled := fun (n : Int × Nat) => n.1 * Decimal.tenTo (unit - n.2)
    let (a, d, b) := (scaled first, scaled step, scaled last)
    let n := (Int.tdiv (b - a) d + 1).toNat
    let n := if (0 < d && b < a) || (d < 0 && a < b) then 0 else n
    if endlessSize < n then { p with flow := .overdue }
    else
      let text := fun (width : Nat) (m : Int) =>
        paddedNumber width places (Int.tdiv m (Decimal.tenTo (unit - places)))
      let width := if wide then max (text 0 a).length (text 0 b).length else 0
      let numbers := (List.range n).map fun (i : Nat) => text width (a + i * d)
      (p.print (if n = 0 then "" else String.intercalate between numbers ++ "\n")).withStatus 0
  match words.find? fun a => (placed? a).isNone, words.filterMap placed? with
  | some bad, _ => p.misused ("invalid floating point argument: " ++ ShellQuoted.plain bad) 1
  | none, [last] => count (1, 0) (1, 0) last
  | none, [first, last] => count first (1, 0) last
  | none, [first, step, last] =>
    if step.1 = 0 then
      p.misused ("invalid Zero increment value: " ++ ShellQuoted.plain (words.getD 1 "")) 1
    else count first step last
  | none, [] => p.misused "missing operand" 1
  | none, _ => p.misused ("extra operand " ++ ShellQuoted.plain (words.getD 3 "")) 1

end Utility

end LintSuite
