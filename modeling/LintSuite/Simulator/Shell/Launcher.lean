import LintSuite.Simulator.Process.Batch
import LintSuite.Simulator.Shell.Execution

/-!
# Programs that run others

Some programs of the system run another one, with a different environment, a limit to its time, or
arguments that they read.  `runNative` runs any program of the system, which may be a shell, and
`runText` and `runCommand` what a shell runs inside itself.  The three call each other one level
further down each time, so that the number of levels bounds them all.
-/

namespace LintSuite.Shell

open Host Text

/-- Running a program by its name, in place of the one that asks for it. -/
def launchInPlace (m : Means) (argv : List String) (refusal : String → String) (p : Process) :
    Process :=
  match Program.search true p.files ((p.var? "PATH").getD SearchPath.fallback) argv with
  | .ok (name, argv) => m.native name argv p
  | .error e =>
    (p.complain (p.name ++ ": " ++ refusal (argv.headD "") ++ ": " ++
      e.reason)).withStatus (if e = .notFound || e = .notDirectory then 127 else 126)

/-- A program that could not be run, as most programs report it. -/
def notRun (name : String) : String := "failed to run command " ++ ShellQuoted.plain name

/-- Running a program in an environment that arguments change. -/
def runEnv (m : Means) : List String → Process → Process
  | "-i" :: rest, p => runEnv m rest { p with vars := [] }
  | "-" :: rest, p => runEnv m rest { p with vars := [] }
  | "--" :: rest, p => runEnv m rest p
  | "-u" :: name :: rest, p => runEnv m rest (p.unsetVar name)
  | a :: rest, p =>
    match Builtin.assignmentOf a with
    | (name, some value) => runEnv m rest (p.setExported name value)
    | (_, none) => launchInPlace m (a :: rest) ShellQuoted.plain p
  | [], p => Utility.printenv [] p

/-- Running a program with another claim on the machine, or telling the claim that there is. -/
def runNice (m : Means) (arguments : List String) (p : Process) : Process :=
  let shorthand := fun (a : String) => match a.toList with
    | '-' :: d :: _ => d.isDigit
    | _ => false
  match arguments with
  | a :: rest =>
    if shorthand a then launchInPlace m rest ShellQuoted.plain p
    else match Arguments.read { valued := ['n'], words := [("adjustment", 'n')], mixed := false }
        arguments with
      | .error e => p.misused e.message 125
      | .ok read =>
        match read.value? 'n', read.operands with
        | some _, [] => p.misused "a command must be given with an adjustment" 125
        | some value, argv =>
          if (Numeral.integer? value).isNone then p.failed ("invalid adjustment " ++ ShellQuoted.plain value) 125
          else launchInPlace m argv ShellQuoted.plain p
        | none, argv => launchInPlace m argv ShellQuoted.plain p
  | [] => (p.print "0\n").withStatus 0

/-- Telling where programs are found, unless there is no such program. -/
def runWhich (names : List String) (p : Process) : Process :=
  names.foldl (fun p name =>
    match (SearchPath.candidates ((p.var? "PATH").getD "") name).find?
        (Program.isExecutable p.files) with
    | some path => p.print (path ++ "\n")
    | none => p.withStatus 1) (p.withStatus (if names.isEmpty then 1 else 0))

/-- Running a program in a session of its own. -/
def runSetsid (m : Means) (arguments : List String) (p : Process) : Process :=
  match Arguments.read { flags := ['c', 'f', 'w'], mixed := false
                         words := [("ctty", 'c'), ("fork", 'f'), ("wait", 'w')] } arguments with
  | .error e => p.misused e.message 1
  | .ok a =>
    if a.operands.isEmpty then p.misused "no command specified" 1
    else launchInPlace m a.operands ("failed to execute " ++ ·) p

/-- Running a program with a limit to its time. -/
def runTimeout (m : Means) (arguments : List String) (p : Process) : Process :=
  match Arguments.read { flags := ['f', 'v', 'p'], valued := ['s', 'k'], mixed := false
                         words := [("signal", 's'), ("kill-after", 'k'), ("foreground", 'f'),
                           ("preserve-status", 'p')] } arguments with
  | .error e => p.misused e.message 125
  | .ok a =>
    match a.operands with
    | [] => p.complain ("Try '" ++ p.name ++ " --help' for more information.") |>.withStatus 125
    | [_] => p.complain ("Try '" ++ p.name ++ " --help' for more information.") |>.withStatus 125
    | span :: argv =>
      match Utility.span? span, Signal.ofOperand? ((a.value? 's').getD "TERM") with
      | none, _ => p.misused ("invalid time interval " ++ ShellQuoted.plain span) 125
      | _, none => p.misused (ShellQuoted.plain ((a.value? 's').getD "") ++ ": invalid signal") 125
      | some span, some signal =>
        let limit := p.elapsed + span
        if span = 0 || p.deadline.any (· ≤ limit) then
          launchInPlace m argv notRun p
        else
          let child := launchInPlace m argv notRun
            { p.fork with deadline := some limit }
          let after := p.rejoin child
          match child.flow with
          | .overdue =>
            let after := { after with elapsed := limit, flow := .onward }
            if signal = 9 then { after with flow := .killed 9 } else after.withStatus 124
          | _ => after

/-- Running a program once with arguments that were read, and whether to go on after that. -/
def runBatch (m : Means) (telling : Bool) (argv : List String) (p : Process) : Process × Bool :=
  let name := argv.headD ""
  let p := if telling then p.complain (" ".intercalate (argv.map ShellQuoted.word)) else p
  match Program.search true p.files ((p.var? "PATH").getD SearchPath.fallback) argv with
  | .error e =>
    (p.failed (name ++ ": " ++ e.reason) (if e = .notFound || e = .notDirectory then 127 else 126),
      false)
  | .ok (found, argv) =>
    let child := m.native found argv { p.child with name := p.name, vars := p.vars }
    let after := p.rejoin child
    match child.flow, after.status with
    | .killed signal, _ => (after.failed (name ++ ": terminated by signal " ++ toString signal) 125,
      false)
    | _, 0 => (after.withStatus p.status, after.isOnward)
    | _, 255 => (after.failed (name ++ ": exited with status 255; aborting") 124, false)
    | _, _ => (after.withStatus 123, after.isOnward)

/-- Running a program with one batch of arguments after another. -/
def runBatches (m : Means) (telling : Bool) : List (List String) → Process → Process
  | [], p => p
  | argv :: rest, p =>
    let (after, goesOn) := runBatch m telling argv p
    if goesOn then runBatches m telling rest after else after

/-- Running a program with arguments from what is read. -/
def runXargs (m : Means) (arguments : List String) (p : Process) : Process :=
  match Arguments.read { flags := ['0', 'r', 't', 'x', 'o']
                         valued := ['a', 'd', 'E', 'I', 'L', 'n', 'P', 's']
                         attached := ['e', 'i', 'l'], mixed := false
                         words := [("null", '0'), ("arg-file", 'a'), ("delimiter", 'd'),
                           ("eof", 'e'), ("replace", 'i'), ("max-lines", 'l'), ("max-args", 'n'),
                           ("open-tty", 'o'), ("max-procs", 'P'), ("no-run-if-empty", 'r'),
                           ("max-chars", 's'), ("verbose", 't'), ("exit", 'x')] } arguments with
  | .error e => p.misused e.message 1
  | .ok a =>
    match Batch.Request.ofOptions a.options with
    | .error e =>
      let (text, hinted) := e.message
      if hinted then p.misused text 1 else p.failed text 1
    | .ok r =>
      let p := r.warnings.reverse.foldl (fun p text => p.failed text 0) (p.withStatus 0)
      match p.readAll ((a.value? 'a').getD "-") with
      | .error e =>
        p.failed ("Cannot open input file " ++ ShellQuoted.plain ((a.value? 'a').getD "-") ++ ": " ++
          e.reason) 1
      | .ok (bytes, p) =>
        let command := if a.operands.isEmpty then ["echo"] else a.operands
        let (found, unclosed) := r.argumentsIn bytes
        let calls := r.calls command (!a.has 'r' && unclosed.isNone) found
        if r.limits.size.any fun n => calls.any (Batch.sizeOf · > n) then
          p.failed "argument line too long" 1
        else
          match unclosed with
          | none => runBatches m (a.has 't') calls p
          | some mark =>
            let kind := if mark = '"' then "double" else "single"
            let p := runBatches m (a.has 't') calls.dropLast p
            let p := p.failed ("unmatched " ++ kind ++
              " quote; by default quotes are special to xargs unless you use the -0 option") 1
            (runBatches m (a.has 't') (calls.drop (calls.length - 1)) p).withStatus 1

/-- The programs that run others, or look for them. -/
def runners? (name : String) : Option (Means → List String → Process → Process) :=
  match name with
  | "sh" | "dash" => some fun m _ p => runShell m p
  | "env" => some runEnv
  | "timeout" => some runTimeout
  | "xargs" => some runXargs
  | "nice" => some runNice
  | "setsid" => some runSetsid
  | "which" => some fun _ => runWhich
  | "nohup" => some fun m argv p => launchInPlace m argv notRun p
  | _ => none

/-- How long it takes to start a program, in microseconds. -/
def startTime : Nat := 1000

mutual

/-- **Running a program of the system** on one of some levels of processes. -/
def runNative : Nat → String → List String → Process → Process
  | 0, _, _, p => (p.complain "Cannot fork").endWith 2
  | levels + 1, name, argv, p =>
    let p := { p with name := argv.headD "", arguments := argv.tail, line := 0 }.pass startTime
    if !p.isOnward then p
    else
      let m : Means := ⟨runText levels, runCommand levels, runNative levels⟩
      let after := match runners? name, nativeUtilities.find? (·.1 == name) with
        | some runner, _ => runner m argv.tail p
        | none, some (_, utility) => utility argv.tail p
        | none, none => p.withStatus 126
      let after := match after.unprinted, runners? name with
        | some reason, none =>
          let isClosed := name = "cat" && reason = "Bad file descriptor"
          let what := if isClosed then ": standard output: " else ": write error: "
          ({ after with unprinted := none }.complain (p.name ++ what ++ reason)).withStatus 1
        | _, _ => after
      let after := heed m { after with nested := false }
      match after.flow with
      | .killed _ => after
      | .overdue => after
      | _ => after.endWith (after.status % 256)

/-- Running a script inside a shell. -/
def runText : Nat → Bool → List Char → Process → Process
  | 0, _, _, p => p.abort "Cannot fork"
  | levels + 1, asked, text, p =>
    runScript ⟨runText levels, runCommand levels, runNative levels⟩ asked text p

/-- Running a command inside a shell. -/
def runCommand : Nat → Bool → Command → Process → Process
  | 0, _, _, p => p.abort "Cannot fork"
  | levels + 1, asked, c, p =>
    run ⟨runText levels, runCommand levels, runNative levels⟩ asked c p

end

end LintSuite.Shell
