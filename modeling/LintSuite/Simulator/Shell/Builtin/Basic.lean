import LintSuite.Simulator.Process.Signal
import LintSuite.Simulator.Shell.Expansion

/-!
# Arguments of the commands of the shell

Commands of the shell take their options apart as programs do, and word what is wrong with them in
another way.  A fault in the arguments of a special command ends the shell.
-/

namespace LintSuite.Shell.Builtin

open Host Text

/-- A command that takes its options apart.  A fault ends the shell if the command is a special
one. -/
def optioned (name : String) (special : Bool) (flags valued : List Char)
    (f : Arguments → Process → Process) : Utility := fun arguments p =>
  match Arguments.read { flags, valued, mixed := false } arguments with
  | .ok a => f a p
  | .error e =>
    if special then p.abort (name ++ ": " ++ e.shellMessage)
    else (p.object name (e.shellMessage)).withStatus 2

/-- An assignment among the arguments of a command. -/
def assignmentOf (text : String) : String × Option String :=
  let cs := text.toList
  let name := cs.takeWhile (· != '=')
  match cs.drop name.length with
  | _ :: value => (String.ofList name, some (String.ofList value))
  | [] => (text, none)

/-- A text in single quotes. -/
def inQuotes (text : String) : String := "'" ++ text.replace "'" "'\"'\"'" ++ "'"

/-- The number that an argument spells, or one. -/
def numberArgument (p : Process) (name : String) (arguments : List String)
    (f : Nat → Process) : Process :=
  match arguments with
  | [] => f 1
  | a :: _ =>
    match Numeral.small? a with
    | some n => f n
    | none => p.abort (name ++ ": Illegal number: " ++ a)

end LintSuite.Shell.Builtin
