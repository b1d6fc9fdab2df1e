import LintSuite.Simulator.Shell.Builtin.Basic

/-!
# Commands of the shell about signals and jobs

`trap` says what the shell does on a signal and at its end.  `wait` waits for commands that run
beside the shell (`waitForAll`, `waitForEach`); a signal that the shell was told to do something on
ends the waiting.  `jobs` lists those commands.
-/

namespace LintSuite.Shell.Builtin

open Host Text

/-! ### Signals -/

/-- The name of what is done something on: a signal, or the end. -/
def trapName (signal : Nat) : String := if signal = 0 then "EXIT" else Signal.name signal

/-- What a name or a number of a signal, or of the end, means. -/
def trapOf? (text : String) : Option Nat :=
  if text.map Char.toUpper = "EXIT" then some 0 else Signal.ofText? text

/-- Saying what to do on signals and at the end. -/
def trap : Utility := optioned "trap" true [] [] fun a p =>
  match a.operands with
  | [] =>
    let sorted := p.traps.mergeSort fun a b => a.1 ≤ b.1
    (p.print (String.join (sorted.map fun (signal, action) =>
      "trap -- " ++ inQuotes action ++ " " ++ trapName signal ++ "\n"))).withStatus 0
  | first :: rest =>
    -- A number alone, or in front of others, takes away what was said.
    let isNumber := (Numeral.digits? first).any (· ≤ Signal.greatest)
    let (action, names) := if rest.isEmpty || isNumber then ("-", a.operands) else (first, rest)
    (names.foldl (fun (going, p) name =>
      if !going then (false, p)
      else match trapOf? name with
        | none => (false, (p.complain ("trap: " ++ name ++ ": bad trap")).withStatus 1)
        | some signal =>
          let others := p.traps.filter (·.1 != signal)
          (true, { p with traps := if action = "-" then others else others ++ [(signal, action)] }))
      (true, p.withStatus 0)).2

/-- The signal that comes first before a time, of those that the shell was told to do something on,
and when it comes. -/
def interruption? (p : Process) (time : Nat) : Option (Nat × Nat) :=
  let coming := p.signals.filter fun s =>
    s.target == p.number && s.time < time && p.acts s.signal
  let ending := if !p.acts Signal.child then [] else
    p.jobs.filterMap fun job =>
      if job.noticed then none else (job.ending.filter (· < time)).map (·, Signal.child)
  (coming.map (fun s => (s.time, s.signal)) ++ ending).foldl (fun (first : Option (Nat × Nat)) s =>
    if first.all (s.1 < ·.1) then some s else first) none

/-- The process with something changed about a job. -/
def changeJob (p : Process) (number : Nat) (f : Job → Job) : Process :=
  { p with jobs := p.jobs.map fun job => if job.number == number then f job else job }

/-- Waiting until a time and doing something then, unless a signal comes before; then the state tells
which one it is.  The outcome tells whether the time has come. -/
def waitFor (time : Option Nat) (f : Process → Process) (p : Process) : Process × Bool :=
  match interruption? p (time.getD (p.elapsed + 1000000000)), time with
  | some (early, signal), _ => ((p.waitUntil early).withStatus (128 + signal), false)
  | none, none => ({ p with flow := .overdue }, false)
  | none, some time =>
    let p := f (p.waitUntil time)
    (p, p.isOnward)

/-- Waiting for all jobs. -/
def waitForAll (p : Process) : Process :=
  let time := p.jobs.foldl (fun (latest : Option Nat) job => do
    some (max (← latest) (← job.ending))) (some p.elapsed)
  (waitFor time (fun p =>
    { p with jobs := p.jobs.map ({ · with awaited := true }), status := 0 }) p).1

/-- Waiting for one job.  The signal that ends it is reported if nobody knew of its end before. -/
def waitForJob (job : Job) (p : Process) : Process × Bool :=
  let isKnown := job.ending.any (· < p.elapsed)
  waitFor job.ending (fun p =>
    let p := (changeJob p job.number ({ · with awaited := true })).withStatus job.status
    match job.signal with
    | some signal =>
      if Signal.isReported signal && !isKnown then p.complain (Signal.report signal) else p
    | none => p) p

/-- Waiting for jobs, given by the numbers of their processes or by their places. -/
def waitForEach : List String → Process → Process
  | [], p => p
  | text :: rest, p =>
    let found : Except String (Option Job) :=
      if text.startsWith "%" then
        match Job.named p.jobs text with
        | .ok job => .ok (some job)
        | .error e => .error e.message
      else match Numeral.small? text with
        | some n => .ok (p.jobs.find? (·.number == n))
        | none => .error ("Illegal number: " ++ text)
    match found with
    | .error text => (p.object "wait" text).withStatus 2
    | .ok none => waitForEach rest p
    | .ok (some job) =>
      let (p, goesOn) := waitForJob job p
      if goesOn then waitForEach rest p else p

/-- Waiting for jobs: for all of them, or for some. -/
def wait : Utility := optioned "wait" false [] [] fun a p =>
  if a.operands.isEmpty then waitForAll p else waitForEach a.operands (p.withStatus 127)

/-! ### Jobs -/

/-- How a job stands, as it is listed. -/
def jobState (p : Process) (job : Job) : String :=
  if !job.hasEnded p.elapsed then "Running"
  else match job.signal with
    | some signal => Signal.report signal
    | none => if job.status = 0 then "Done" else "Done(" ++ toString job.status ++ ")"

/-- The line about a job, with its number if that is asked for.  The last job and the one before it
are marked. -/
def jobLine (p : Process) (numbered : Bool) (job : Job) : String :=
  let isAt := fun (i : Nat) => (p.jobs[i]?.map (·.number)) == some job.number
  let mark := if isAt 0 then "+" else if isAt 1 then "-" else " "
  let text := "[" ++ toString job.place ++ "] " ++ mark ++ " " ++
    (if numbered then toString job.number ++ " " else "") ++ jobState p job
  text ++ String.ofList (List.replicate (33 - text.length) ' ') ++
    String.join (List.replicate (job.processes - 1) " | ") ++ "\n"

/-- Showing a job.  One that has ended is not known any more after that. -/
def showJob (a : Arguments) (p : Process) (job : Job) : Process :=
  if a.last? ['l', 'p'] = some 'p' then p.print (toString job.number ++ "\n")
  else
    let p := p.print (jobLine p (a.has 'l') job)
    if job.hasEnded p.elapsed then
      { p with jobs := p.jobs.filter (·.number != job.number) }
    else p

/-- Showing some jobs by their names. -/
def showEach (a : Arguments) : List String → Process → Process
  | [], p => p
  | text :: rest, p =>
    match Job.named p.jobs text with
    | .ok job => showEach a rest (showJob a p job)
    | .error e => (p.object "jobs" e.message).withStatus 2

/-- Listing the jobs, or some of them. -/
def jobs : Utility := optioned "jobs" false ['l', 'p'] [] fun a p =>
  if a.operands.isEmpty then
    (p.jobs.foldl (showJob a) p).withStatus 0
  else showEach a a.operands (p.withStatus 0)

/-- Moving a job, of which there is none under a terminal. -/
def moveJob (name : String) : Utility := optioned name false [] [] fun a p =>
  let text := a.operands.headD "%"
  let shown := a.operands.headD "(null)"
  match Job.named p.jobs text with
  | .ok _ => (p.object name ("job " ++ shown ++ " not created under job control")).withStatus 2
  | .error e => (p.object name e.message).withStatus 2

end LintSuite.Shell.Builtin
