import LintSuite.Diagnostic
import LintSuite.Duration
import LintSuite.Host.IoError
import LintSuite.Normalizer
import LintSuite.Platform
import LintSuite.Text.Blank
import LintSuite.Text.Utf8

/-!
# Commands and what becomes of them

A command is a program and its arguments.  It may not start, not be waited for, be stopped when its
time is over, or end in a state with two streams of bytes (`ProcessEnd`).  `outcome` says which of
these is a success: an end with state zero, whose standard output is the result.  Any other end is a
failure, told by the standard error if that says anything and by the state otherwise.

`findings` turns an outcome into diagnostics.  A tool that fails without a word on standard error
but with standard output has findings; every other failure is an error.
-/

namespace LintSuite

open Text Host

/-- How a process ended. -/
inductive ExitState where
  /-- With a state of its own. -/
  | code (n : Nat)
  /-- By a signal. -/
  | signal (n : Nat)
  deriving DecidableEq, Repr

/-- The number shown for an end: a signal has none of its own. -/
def ExitState.number : ExitState → Int
  | .code n => n
  | .signal _ => -1

/-- What became of a command. -/
inductive ProcessEnd where
  /-- It was not started. -/
  | refused (e : IoError)
  /-- It could not be waited for. -/
  | lost (e : IoError)
  /-- It was stopped after a time. -/
  | stopped (after : Duration)
  /-- It ended. -/
  | ended (exit : ExitState) (stdout stderr : List UInt8)
  deriving DecidableEq, Repr

/-- **A failure** of a command. -/
inductive Failure where
  /-- It was not started. -/
  | spawn (e : IoError)
  /-- It could not be waited for. -/
  | wait (command : String) (e : IoError)
  /-- It failed and said why. -/
  | failed (text : String)
  /-- It failed without a word on standard error. -/
  | status (command : String) (code : Int) (stdout : String)
  /-- It was stopped. -/
  | timeout (command : String) (after : Duration)
  deriving DecidableEq, Repr

/-- The text of a failure. -/
def Failure.message : Failure → String
  | .spawn e => "failed to read cmd output: " ++ e.message
  | .wait command e => "failed to wait for " ++ command ++ ": " ++ e.message
  | .failed text => text
  | .status command code _ => command ++ ": exit status " ++ toString code
  | .timeout command after => command ++ ": timed out after " ++ after.text

/-- A command as messages show it. -/
def commandLine (argv : List String) : String :=
  String.intercalate " " argv

/-- The text of a stream. -/
def streamText (bytes : List UInt8) : List Char :=
  Utf8.decodeLossy bytes

/-- The text of standard output, without one line feed at its end. -/
def outputText (bytes : List UInt8) : String :=
  String.ofList (Lines.chop '\n' (streamText bytes))

/-- The text of standard error, without the blanks around it. -/
def errorText (bytes : List UInt8) : String :=
  trim (String.ofList (streamText bytes))

/-- The failure that an end stands for, unless its state is zero. -/
def failureOf (argv : List String) (exit : ExitState) (stdout stderr : List UInt8) : Failure :=
  if (errorText stderr).isEmpty then .status (commandLine argv) exit.number (outputText stdout)
  else .failed (errorText stderr)

/-- **The outcome** of a command. -/
def outcome (argv : List String) : ProcessEnd → Except Failure String
  | .refused e => .error (.spawn e)
  | .lost e => .error (.wait (commandLine argv) e)
  | .stopped after => .error (.timeout (commandLine argv) after)
  | .ended exit stdout stderr =>
    if exit = .code 0 then .ok (outputText stdout)
    else .error (failureOf argv exit stdout stderr)

/-- The text that an outcome reports, and its level. -/
def reported : Except Failure String → String × Level
  | .ok stdout => (stdout, .warn)
  | .error (.status command code stdout) =>
    if stdout.isEmpty then ((Failure.status command code stdout).message, .error)
    else (stdout, .warn)
  | .error e => (e.message, .error)

/-- **The diagnostics** of an outcome. -/
def findings (normalizer : Normalizer) (result : Except Failure String) : List Diagnostic :=
  (normalizer.normalize (reported result).1).map (⟨(reported result).2, ·⟩)

/-- **What a run needs of the world**, which is a state of some type: a way to execute commands, to
look programs up, and to read files. -/
structure Executor (σ : Type) where
  /-- Executing a command in a context. -/
  execute : List String → RunContext → σ → Except Failure String × σ
  /-- Whether a program can be found. -/
  isAvailable : String → σ → Bool
  /-- The content of a file. -/
  read : Path → σ → Except IoError (List UInt8)

/-- **The executor that launches commands**, in some way of launching them, and classifies how they
end.  Without a program there is nothing to launch. -/
def Executor.launching {σ : Type} (launch : List String → RunContext → σ → ProcessEnd × σ)
    (isAvailable : String → σ → Bool) (read : Path → σ → Except IoError (List UInt8)) :
    Executor σ where
  execute argv ctx s :=
    if argv.isEmpty then (.ok "", s)
    else (outcome argv (launch argv ctx s).1, (launch argv ctx s).2)
  isAvailable := isAvailable
  read := read

/-- A command as it was executed. -/
structure Call where
  /-- The program and its arguments. -/
  argv : List String
  /-- The context it was run in. -/
  context : RunContext
  deriving DecidableEq, Repr

/-- The executor that also keeps a record of the calls, the latest last. -/
def Executor.recording {σ : Type} (x : Executor σ) : Executor (σ × List Call) where
  execute argv ctx s :=
    let (result, after) := x.execute argv ctx s.1
    (result, (after, s.2 ++ [⟨argv, ctx⟩]))
  isAvailable program s := x.isAvailable program s.1
  read p s := x.read p s.1

end LintSuite
