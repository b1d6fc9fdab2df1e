import LintSuite.Simulator.Shell.SimpleCommand

/-!
# Running scripts

`run` runs one command in a shell, and `runScript` a script line by line.  A command knows whether
its success is being asked for (`asked`): if it is not, a failure ends a shell with the option `e`.

Commands that run side by side start at one time.  The stages of a pipeline are run from the first
to the last, each with what the one before it printed as its feed; a command beside the shell is run
as soon as it is met, and its output carries the times when it would have come.
-/

namespace LintSuite.Shell

open Host Text

/-! ### Compound commands -/

/-- The process behind the body of a loop, and whether another round may follow. -/
def behindBody (p : Process) : Bool × Process :=
  match p.flow with
  | .onward => (true, p)
  | .skipping 0 => (true, { p with flow := .onward })
  | .skipping (n + 1) => (false, { p with flow := .skipping n })
  | .leaving 0 => (false, { p with flow := .onward })
  | .leaving (n + 1) => (false, { p with flow := .leaving n })
  | _ => (false, p)

/-- Rounds of a loop as long as a test asks for them.  The state is that of the last body. -/
def runRounds (untilSuccess : Bool) (test body : Process → Process) :
    Nat → Nat → Process → Process
  | 0, _, p => { p with flow := .overdue }
  | rounds + 1, status, p =>
    match behindBody (test { p with patience := p.patience - 1 }) with
    | (false, p) => p
    | (true, p) =>
      if (p.status == 0) == untilSuccess then p.withStatus status
      else match behindBody (body p) with
        | (true, p) => runRounds untilSuccess test body (min rounds p.patience) p.status p
        | (false, p) => p
  termination_by rounds => rounds
  decreasing_by omega

/-- Rounds of a loop for some values of a variable. -/
def runEach (name : String) (body : Process → Process) : List String → Process → Process
  | [], p => p
  | value :: rest, p =>
    match behindBody (body (p.setVar name value)) with
    | (true, p) => runEach name body rest p
    | (false, p) => p

/-- Running something inside a loop. -/
def insideLoop (f : Process → Process) (p : Process) : Process :=
  { f { p with loops := p.loops + 1 } with loops := p.loops }

/-- The process after a command whose success nobody asked for: a failure ends a shell with the
option `e`. -/
def unlessFailed (asked : Bool) (p : Process) : Process :=
  if p.isOnward && !asked && p.status != 0 && p.options.contains 'e' then p.endWith p.status else p

/-- Running something in a shell of its own. -/
def inSubshell (m : Means) (f : Process → Process) (p : Process) : Process :=
  p.rejoin (atEnd m (f p.subshell))

/-- The stages of a pipeline, given by what they do, each of which reads what the one before it
prints.  A stage that prints on and on is ended when nobody reads it any more. -/
def runPiped (m : Means) : List (Process → Process) → Process → Process
  | [], p => p
  | [last], p => inSubshell m last p
  | f :: rest, p =>
    let q := p.subshell
    let (chunks, child) := { q with patience := p.patience / 2 }.capture fun q => atEnd m (f q)
    let endless := child.flow == .overdue
    let feed : Feed :=
      { chunks := Chunk.inOrder chunks, closed := Chunk.latest child.elapsed chunks, endless }
    let between := { p.rejoin child with
      elapsed := p.elapsed, flow := p.flow
      patience := p.patience - p.patience / 2 + if endless then 0 else child.patience }
    let after := runPiped m rest (between.withFeed 0 feed)
    let after := after.redirect 0 (p.stream? 0)
    if !after.isOnward then after
    else if endless then
      match feed.chunks.find? (after.elapsed ≤ ·.time) with
      | some c => after.waitUntil c.time
      | none => after
    else after.waitUntil feed.closed

/-- **Running something beside the shell**: on the shell's clock no time passes. -/
def beside (m : Means) (single : Bool) (processes : Nat) (f : Process → Process) (p : Process) : Process :=
  let start := p.subshell
  let number := firstNumber + start.births
  let (place, jobs) := Job.vacancy p.elapsed p.jobs
  let q := { start with job := number, deadline := none, patience := p.patience / 10, single }
  let child := atEnd m (f (q.redirect 0 (some .nowhere)))
  let (ending, status, signal) : Option Nat × Nat × Option Nat := match child.flow with
    | .overdue => (none, 0, none)
    | .killed signal => (some child.elapsed, 128 + signal, some signal)
    | _ => (some child.elapsed, child.status % 256, none)
  { p.rejoin child with
    elapsed := p.elapsed, flow := p.flow, status := 0, patience := p.patience
    signals := child.signals
    jobs := { place, number, processes, ending, status, signal } :: jobs, lastJob := some number }

/-- Whether a text fits one of some words as patterns, and the process after looking. -/
def fitsAny (m : Means) (text : String) : List Word → Process → Bool × Process
  | [], p => (false, p)
  | w :: rest, p =>
    let (atoms, p) := expand m.inner w p
    if Glob.fits (Glob.items (glyphsOf atoms)) text.toList then (true, p)
    else fitsAny m text rest p

/-- How many processes a command needs side by side. -/
def processesOf : Command → Nat
  | .pipeline commands => commands.length
  | _ => 1

/-- Whether a command is a simple one. -/
def isSimple : Command → Bool
  | .simple _ _ _ _ => true
  | _ => false

mutual

/-- **Running a command.** -/
def run (m : Means) (asked : Bool) : Command → Process → Process
  | .nothing, p => p
  | .simple line assignments words redirections, p =>
    if p.options.contains 'n' then p
    else
      let after := runSimple m asked assignments words redirections { p with line }
      unlessFailed asked (heed m after)
  | .pipeline commands, p => unlessFailed asked (heed m (runPiped m (runStages m commands) p))
  | .negation c, p =>
    let p := run m true c p
    if p.isOnward then p.withStatus (if p.status = 0 then 1 else 0) else p
  | .both c d, p =>
    let p := run m true c p
    if p.isOnward && p.status = 0 then run m asked d p else p
  | .either c d, p =>
    let p := run m true c p
    if p.isOnward && p.status != 0 then run m asked d p else p
  | .sequence c d, p =>
    let p := run m asked c p
    if p.isOnward then run m asked d p else p
  | .redirected line c redirections, p =>
    withRedirections m redirections (run m asked c) { p with line }
  | .subshell c, p => unlessFailed asked (heed m (inSubshell m (run m asked c) p))
  | .background c, p => beside m (isSimple c) (processesOf c) (run m false c) p
  | .define name body, p => (p.define name body).withStatus 0
  | .conditional test yes no, p =>
    let p := run m true test p
    if !p.isOnward then p
    else if p.status = 0 then run m asked yes (p.withStatus 0)
    else run m asked no (p.withStatus 0)
  | .loop untilSuccess test body, p =>
    insideLoop (fun p => runRounds untilSuccess (run m true test) (run m asked body)
      (p.patience + 1) 0 p) p
  | .each line name words body, p =>
    let p := { p with line }
    let (values, p) := match words with
      | some words => expandAll m.inner words p
      | none => (p.arguments, p)
    if !p.isOnward then p
    else match (values.findSome? (p.assignmentFault? name ·)) with
      | some text => p.abort text
      | none => insideLoop (runEach name (run m asked body) values) (p.withStatus 0)
  | .choice line word arms, p =>
    let (text, p) := expandText m.inner word { p with line }
    if p.isOnward then runArms m asked text arms (p.withStatus 0) else p

/-- What the stages of a pipeline do. -/
def runStages (m : Means) : List Command → List (Process → Process)
  | [] => []
  | c :: rest => run m false c :: runStages m rest

/-- The first arm whose patterns a text fits. -/
def runArms (m : Means) (asked : Bool) (text : String) :
    List (List Word × Command) → Process → Process
  | [], p => p
  | (patterns, c) :: rest, p =>
    let (found, p) := fitsAny m text patterns p
    if !p.isOnward then p
    else if found then run m asked c p
    else runArms m asked text rest p

end

/-! ### Scripts and programs -/

/-- Running a script line by line. -/
def runLines (m : Means) (asked : Bool) : Nat → Source → Process → Process
  | 0, _, p => p
  | steps + 1, src, p =>
    if src.rest.isEmpty || !p.isOnward then p
    else match readLine p.aliases src with
      | .error e => { p with line := e.line }.abort ("Syntax error: " ++ e.text)
      | .ok (c, src) =>
        runLines m asked steps src (run m asked c p)

/-- **Running a script** that begins on the line at hand. -/
def runScript (m : Means) (asked : Bool) (text : List Char) (p : Process) : Process :=
  runLines m asked (text.length + 1) { rest := text, line := p.line } p

/-- The variables of a shell as it starts, if they have no values yet. -/
def firstVars : List (String × String) :=
  [("PATH", "/usr/local/sbin:/usr/local/bin:/usr/sbin:/usr/bin:/sbin:/bin"), ("PS1", "# "),
    ("PS2", "> "), ("PS4", "+ ")]

/-- The process of a shell as it starts: it knows its working directory and who started it, and how
fields are cut. -/
def started (p : Process) : Process :=
  let here := Octets.ofPath p.files.workingDir
  let known : Bool := match p.var? "PWD" with
    | some dir =>
      dir.toList.head? = some '/' &&
        (p.files.find (Octets.path dir)).toOption.map (·.1) = some p.files.cwd
    | none => false
  let p := if known then p else p.setExported "PWD" here
  let p := { p with directory := (p.var? "PWD").getD here }
  let p := firstVars.foldl (fun p (name, value) =>
    if (p.var? name).isSome then p else p.setVar name value) p
  ((p.setVar "IFS" " \t\n").setVar "OPTIND" "1").setVar "PPID" (toString p.parent)

/-- **A shell.**  Its script is an argument, a file, or what it reads. -/
def runShell (m : Means) (p : Process) : Process :=
  match Switches.read true [] p.arguments with
  | .error text => p.abort text
  | .ok s =>
    let p := { started p with options := s.on }
    let go := fun (text : List Char) (p : Process) =>
      atEnd m (runScript m false text { p with line := 1 })
    match s.script, s.rest with
    | true, [] => p.abort "-c requires an argument"
    | true, text :: rest =>
      go text.toList { p with name := rest.headD p.name, arguments := rest.tail }
    | false, rest =>
      if rest.isEmpty || s.on.contains 's' then
        let (bytes, p) := p.takeInput
        go (Octets.chars bytes)
          { p with arguments := rest, options := Switches.turn true (some 's') p.options }
      else
        let file := rest.headD ""
        match p.files.read (Octets.path file) with
        | .ok content =>
          go (Octets.chars content) { p with name := file, arguments := rest.tail }
        | .error e => p.abort ("cannot open " ++ file ++ ": " ++ openReason e "No such file")

end LintSuite.Shell
