import LintSuite.Simulator.Process.Utility

/-!
# Signals

A signal is sent to a process by its number.  What a process does about it is decided when it looks
for the signals that have reached it: a shell may have been told what to do, and otherwise a signal
is ignored, stops the process for good, or ends it (`Effect`).

A job that a shell has started beside itself is ended by a signal on the spot: what it would have
printed later is taken back (`Process.endJob`).
-/

namespace LintSuite

open Host Text

namespace Signal

/-- The signals by their names. -/
def names : List (String × Nat) :=
  [("HUP", 1), ("INT", 2), ("QUIT", 3), ("ILL", 4), ("TRAP", 5), ("ABRT", 6), ("BUS", 7),
    ("FPE", 8), ("KILL", 9), ("USR1", 10), ("SEGV", 11), ("USR2", 12), ("PIPE", 13), ("ALRM", 14),
    ("TERM", 15), ("CHLD", 17), ("CONT", 18), ("STOP", 19), ("TSTP", 20), ("TTIN", 21),
    ("TTOU", 22), ("URG", 23), ("XCPU", 24), ("XFSZ", 25), ("VTALRM", 26), ("PROF", 27),
    ("WINCH", 28), ("IO", 29), ("PWR", 30), ("SYS", 31)]

/-- The greatest number of a signal. -/
def greatest : Nat := 64

/-- The name of a signal whose use is free, by its distance from the first or the last of them. -/
def freeName? (signal : Nat) : Option String :=
  if signal < 34 || greatest < signal then none
  else if signal = 34 then some "RTMIN"
  else if signal < 50 then some ("RTMIN+" ++ toString (signal - 34))
  else if signal < greatest then some ("RTMAX-" ++ toString (greatest - signal))
  else some "RTMAX"

/-- The name of a signal, or its number if it has none. -/
def name (signal : Nat) : String :=
  match names.find? (·.2 == signal), freeName? signal with
  | some (text, _), _ => text
  | none, some text => text
  | none, none => toString signal

/-- The signal that a text names, by its number or, in any case of letters, by its name. -/
def ofText? (text : String) : Option Nat :=
  match Numeral.digits? text with
  | some n => if n ≤ greatest then some n else none
  | none =>
    ((List.range greatest).map (· + 1)).find? fun signal => name signal == text.map Char.toUpper

/-- The signal that a text names, in front of whose name there may be three more letters. -/
def ofOperand? (text : String) : Option Nat :=
  let upper := text.map Char.toUpper
  if upper.startsWith "SIG" then
    (names.find? (·.1 == (upper.drop 3).toString)).map (·.2)
  else ofText? text

/-- What a shell reports when a signal ended a program. -/
def report (signal : Nat) : String :=
  match signal with
  | 1 => "Hangup"
  | 3 => "Quit"
  | 4 => "Illegal instruction"
  | 5 => "Trace/breakpoint trap"
  | 6 => "Aborted"
  | 7 => "Bus error"
  | 8 => "Floating point exception"
  | 9 => "Killed"
  | 10 => "User defined signal 1"
  | 11 => "Segmentation fault"
  | 12 => "User defined signal 2"
  | 14 => "Alarm clock"
  | 15 => "Terminated"
  | 24 => "CPU time limit exceeded"
  | 25 => "File size limit exceeded"
  | 26 => "Virtual timer expired"
  | 27 => "Profiling timer expired"
  | 29 => "I/O possible"
  | 30 => "Power failure"
  | 31 => "Bad system call"
  | n => "Signal " ++ toString n

/-- Whether an end by a signal is reported at all. -/
def isReported (signal : Nat) : Bool := signal != 2 && signal != 13

/-- What a signal does to a process that says nothing about it. -/
inductive Effect where
  /-- Nothing. -/
  | none
  /-- It stops the process for good. -/
  | stop
  /-- It ends the process. -/
  | terminate
  deriving DecidableEq, Repr

/-- What a signal does. -/
def effect (signal : Nat) : Effect :=
  if [0, 17, 18, 23, 28].contains signal then .none
  else if [19, 20, 21, 22].contains signal then .stop
  else .terminate

end Signal

namespace Process

/-- The process with a job ended by a signal, without what the job would have printed later. -/
def endJob (p : Process) (number signal : Nat) : Process :=
  { p with
    jobs := p.jobs.map fun job =>
      if job.number == number then
        { job with ending := some p.elapsed, status := 128 + signal, signal := some signal }
      else job
    channels := p.channels.map fun chunks =>
      chunks.filter fun c => !(c.job == number && p.elapsed < c.time) }

/-- The process with a signal on its way. -/
def sendTo (p : Process) (target signal : Nat) : Process :=
  { p with signals := p.signals ++ [⟨p.elapsed, target, signal⟩] }

/-- **Sending a signal** to a process by its number, if there is one. -/
def signalTo? (p : Process) (number signal : Nat) : Option Process :=
  if number = p.number || number = p.parent then some (p.sendTo number signal)
  else if number = 0 then some ((p.sendTo p.number signal).sendTo firstNumber signal)
  else match p.jobs.find? (·.number == number) with
    | none => none
    | some job =>
      if job.hasEnded p.elapsed then none
      else match Signal.effect signal with
        | .none => some p
        | .stop =>
          some { p with
            jobs := p.jobs.map fun j =>
              if j.number == number then { j with ending := none } else j }
        | .terminate => some (p.endJob number signal)

/-- The signals that have reached a process, each once, and the process without them. -/
def received (p : Process) : List Nat × Process :=
  let (mine, others) := p.signals.partition fun s => s.target == p.number && s.time ≤ p.elapsed
  let known := fun (signal : Nat) => mine.any (·.signal == signal)
  ((List.range (Signal.greatest + 1)).filter known, { p with signals := others })

end Process

namespace Utility

/-- Sending a signal to one target after another: processes by their numbers, or jobs, whose groups
are not there. -/
def sendSignal (signal : Nat) : List String → Process → Process
  | [], p => p
  | target :: rest, p =>
    let missed := fun (p : Process) => (p.object "kill" "No such process\n").withStatus 1
    if target.startsWith "%" then
      match Job.named p.jobs target with
      | .ok _ => sendSignal signal rest (missed p)
      | .error e => (p.object "kill" e.message).withStatus 2
    else
      let digits := if target.startsWith "-" then (target.drop 1).toString else target
      match Numeral.small? digits with
      | some n => sendSignal signal rest ((p.signalTo? n signal).getD (missed p))
      | none => (p.object "kill" ("Illegal number: " ++ digits)).withStatus 2

/-- Printing the name of a signal, given by its number or by the state that it leaves, or the names
of all signals. -/
def nameSignal (operands : List String) (p : Process) : Process :=
  match operands with
  | [] => p.print (String.join ((List.range (Signal.greatest + 1)).map (Signal.name · ++ "\n")))
  | text :: _ =>
    match Numeral.small? text with
    | none => (p.object "kill" ("Illegal number: " ++ text)).withStatus 2
    | some n =>
      let signal := if 128 < n then n - 128 else n
      if 0 < signal && signal ≤ Signal.greatest then p.print (Signal.name signal ++ "\n")
      else (p.object "kill" ("invalid signal number or exit status: " ++ text)).withStatus 2

/-- Saying how signals are sent. -/
def killUsage (p : Process) : Process :=
  ((p.object "kill" "Usage: kill [-s sigspec | -signum | -sigspec] [pid | job]... or").complain
    "kill -l [exitstatus]").withStatus 2

/-- Sending a signal, that of termination if none is named. -/
def kill : Utility := fun arguments p =>
  let first := arguments.headD ""
  let p := p.withStatus 0
  let send := fun (signal : Nat) (targets : List String) =>
    if targets.isEmpty then killUsage p else sendSignal signal targets p
  if !first.startsWith "-" then send 15 arguments
  else match Signal.ofText? (first.drop 1).toString with
    | some signal => send signal arguments.tail
    | none =>
      match Arguments.read { flags := ['l'], valued := ['s'], mixed := false } arguments with
      | .error e => (p.object "kill" e.shellMessage).withStatus 2
      | .ok a =>
        match (a.values 's').find? fun name => (Signal.ofText? name).isNone with
        | some name => (p.object "kill" ("invalid signal number or name: " ++ name)).withStatus 2
        | none =>
          match (a.value? 's').bind Signal.ofText? with
          | some signal =>
            if !a.has 'l' then send signal a.operands
            else if a.operands.isEmpty then nameSignal [] p else killUsage p
          | none => if a.has 'l' then nameSignal a.operands p else send 15 a.operands

end Utility

end LintSuite
