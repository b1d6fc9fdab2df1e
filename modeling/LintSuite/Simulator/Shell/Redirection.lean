import LintSuite.Simulator.Shell.Builtin

/-!
# Signals and redirections

A shell runs other programs, functions, and scripts inside its words by its `Means`.  Whatever it
runs, signals may reach it in between (`heed`), and it does what it was told to do on its end
(`atEnd`).

Redirections are made one after another before a command runs and are taken back behind it
(`withRedirections`); one that fails keeps the command from running.
-/

namespace LintSuite.Shell

open Host Text

/-- What a shell runs one level further down. -/
structure Means where
  /-- A script in the same shell, whose success is asked for or not. -/
  script : Bool → List Char → Process → Process
  /-- A command in the same shell, whose success is asked for or not. -/
  command : Bool → Command → Process → Process
  /-- A program of the system, by its name and its arguments. -/
  native : String → List String → Process → Process

/-! ### Signals and ends -/

/-- What a shell does about a signal that has reached it: what it was told to, or what the signal
does by itself. -/
def heedOne (m : Means) (p : Process) (signal : Nat) : Process :=
  if !p.isOnward then p
  else match p.traps.find? (·.1 == signal) with
    | some (_, action) =>
      if action.isEmpty then p
      else
        let held := some (p.held.getD p.status)
        let after := m.script false action.toList { p with line := 1, origin := none, held }
        if after.isOnward then
          { after with status := p.status, line := p.line, origin := p.origin, held := p.held }
        else { after with held := p.held }
    | none =>
      match Signal.effect signal with
      | .none => p
      | .stop => { p with flow := .overdue }
      | .terminate => { p with flow := .killed signal }

/-- The process when it knows which jobs have ended. -/
def noticing (p : Process) : Process :=
  let isNew := fun (job : Job) => !job.noticed && job.hasEnded p.elapsed
  if p.jobs.any isNew then
    let after := { p with
      jobs := p.jobs.map fun job => { job with noticed := job.noticed || isNew job } }
    if p.acts Signal.child then after.sendTo p.number Signal.child else after
  else p

/-- **The shell after it has looked for signals.**  Those for a shell are not for its subshells.  One
that ends the shell is not kept waiting by others. -/
def heed (m : Means) (p : Process) : Process :=
  let p := noticing p
  if p.nested || p.signals.isEmpty then p
  else
    let (signals, p) := p.received
    let isDeadly := fun (signal : Nat) =>
      !(p.traps.any (·.1 == signal)) && Signal.effect signal != .none
    match signals.find? isDeadly with
    | some signal => heedOne m p signal
    | none => signals.foldl (heedOne m) p

/-- **The shell at its end**, when it has done what it was told to do then. -/
def atEnd (m : Means) (p : Process) : Process :=
  match p.flow with
  | .killed _ => p
  | .overdue => p
  | _ =>
    match p.traps.find? (·.1 == 0) with
    | some (_, action) =>
      if action.isEmpty then p
      else
        let q := { p with
          traps := p.traps.filter (·.1 != 0), flow := .onward, loops := 0, held := some p.status }
        let after := m.script false action.toList { q with line := 1, origin := none }
        match after.flow with
        | .onward => { after with status := p.status, flow := p.flow }
        | _ => after
    | none => p

/-- A command inside a word, as a subshell of its own runs it. -/
def Means.inner (m : Means) (c : Command) (p : Process) : Process :=
  atEnd m (m.command false c p)

/-! ### Redirections -/

/-- The reason why a file cannot be opened. -/
def openReason (e : IoError) (missing : String) : String :=
  if e = .notFound || e = .notDirectory then missing else e.reason

/-- The process with a descriptor that leads to a file, which is emptied unless output is added at
its end. -/
def openOutput (p : Process) (descriptor : Nat) (file : String) (writing : Writing) :
    Except IoError Process := do
  let there := p.files.isFile (Octets.path file)
  if writing = .fresh && p.options.contains 'C' && there then .error .alreadyExists
  let files ← if writing = .added && there then .ok p.files else p.files.write (Octets.path file) []
  let p := { p with files }
  match ← files.find (Octets.path file) with
  | (_, .device d) =>
    match p.deviceStream? d with
    | some stream => .ok (p.redirect descriptor (some stream))
    | none => .error .notFound
  | (location, _) => .ok (p.redirect descriptor (some (.file location)))

/-- The process with a redirection, and whether that could be done. -/
def redirectOne (m : Means) (r : Redirection) (p : Process) : Bool × Process :=
  match r.2 with
  | .duplicate word =>
    let (text, p) := expandText m.inner word p
    match text.toList with
    | ['-'] => (true, p.redirect r.1 none)
    | [c] =>
      if !c.isDigit then (false, p.abort "Syntax error: Bad fd number")
      else match p.stream? (c.toNat - '0'.toNat) with
        | some stream => (true, p.redirect r.1 (some stream))
        | none => (false, p.warn (text ++ ": Bad file descriptor"))
    | _ => (false, p.abort "Syntax error: Bad fd number")
  | .input word =>
    let (file, p) := expandText m.inner word p
    let refused := fun (e : IoError) =>
      (false, p.warn ("cannot open " ++ file ++ ": " ++ openReason e "No such file"))
    match p.files.descriptor? (Octets.path file) with
    | some n =>
      match p.stream? n with
      | some stream => (true, p.redirect r.1 (some stream))
      | none => refused .notFound
    | none =>
      match p.files.feed (Octets.path file) with
      | .ok feed => (true, p.withFeed r.1 feed)
      | .error e => refused e
  | .document word =>
    let (text, p) := expandText m.inner word p
    (true, p.withFeed r.1 (Feed.ofBytes (Octets.ofString text) false))
  | .output word writing =>
    let (file, p) := expandText m.inner word p
    match openOutput p r.1 file writing with
    | .ok p => (true, p)
    | .error e =>
      (false, p.warn ("cannot create " ++ file ++ ": " ++ openReason e "Directory nonexistent"))

/-- The process with some redirections, and whether they could be done. -/
def redirectAll (m : Means) : List Redirection → Process → Bool × Process
  | [], p => (true, p)
  | r :: rest, p =>
    match redirectOne m r p with
    | (true, p) => if p.isOnward then redirectAll m rest p else (false, p)
    | (false, p) => (false, p)

/-- The process after a command, with the descriptors that it redirected where they led before. -/
def restore (redirections : List Redirection) (before after : Process) : Process :=
  redirections.foldl (fun p r => p.redirect r.1 (before.stream? r.1)) after

/-- Running something with redirections. -/
def withRedirections (m : Means) (redirections : List Redirection) (f : Process → Process)
    (p : Process) : Process :=
  match redirectAll m redirections p with
  | (true, q) => restore redirections p (f q)
  | (false, q) => restore redirections p (if q.isOnward then q.withStatus 2 else q)

end LintSuite.Shell
