import LintSuite.Run
import LintSuite.Simulator.Shell.Launcher

/-!
# Executing commands on a machine

A command is executed with an environment, to which its context adds variables.  All its texts are
packed into octets for it.  It reads nothing, and is looked at again and again until it has ended or
its time is over (`lastLook`).  `executor` is the file system, with what executing a command does to
it, as a run sees it.
-/

namespace LintSuite.Machine

open Host Text

/-- Variables of the environment, of which a later one counts more than an earlier one. -/
abbrev Environment := List (String × String)

/-- The value of a variable. -/
def Environment.var? (environment : Environment) (name : String) : Option String :=
  (environment.reverse.find? (·.1 == name)).map (·.2)

/-- The home directory, which is that of the user if the environment names none. -/
def Environment.home (environment : Environment) : Path :=
  .ofText ((environment.var? "HOME").getD "/root")

/-- The variables of a process with an environment.  They are handed on as texts sorted by their
keys, and a name ends at the first equals sign of its text. -/
def Environment.vars (environment : Environment) : List Variable :=
  let sorted := environment.mergeSort fun a b => !(b.1 < a.1)
  (sorted.foldl (fun (p : Process) (key, value) =>
    match Shell.Builtin.assignmentOf (key ++ "=" ++ value) with
    | (name, some value) => p.setExported name value
    | _ => p) { files := .empty }).vars

/-- When a command is first looked at, in microseconds. -/
def firstLook : Nat := 100

/-- The time between two looks, in microseconds. -/
def lookInterval : Nat := 10000

/-- When a command with a time limit is looked at for the last time: the first look that is not
before the limit. -/
def lastLook (limit : Duration) : Nat :=
  let micros := (limit.nanos + 999) / 1000
  firstLook + (micros - firstLook + lookInterval - 1) / lookInterval * lookInterval

/-- How many levels of processes there may be. -/
def processLevels : Nat := 1200

/-- Whether a text can be handed to another process. -/
def isPassable (text : String) : Bool := !text.toList.contains '\x00'

/-- The end of a process that had a time limit, with what it printed. -/
def endOf (limit : Option Duration) (p : Process) : ProcessEnd :=
  let printed := fun channel => Chunk.joined (p.channels.getD channel [])
  match p.flow, limit with
  | .overdue, some limit => .stopped limit
  | .overdue, none => .ended (.signal 9) (printed 0) (printed 1)
  | .killed signal, _ => .ended (.signal signal) (printed 0) (printed 1)
  | _, _ => .ended (.code p.status) (printed 0) (printed 1)

/-- **Launching a command** with variables added to an environment: what becomes of it, and the file
system after it.  If the search path is among the variables added, a file in no known format that is
found on it counts as a script for the shell. -/
def launch (environment : Environment) (limit : Option Duration) (argv : List String)
    (added : Environment) (fs : FileSystem) : ProcessEnd × FileSystem :=
  let inside : Environment := environment ++ added
  if !(argv ++ added.flatMap fun v => [v.1, v.2]).all isPassable then (.refused .nulInArgument, fs)
  else
    let inside : Environment := inside.map fun v => (Octets.packed v.1, Octets.packed v.2)
    let argv := argv.map Octets.packed
    let scripts := added.any (·.1 == "PATH") && !SearchPath.isPlaced (argv.headD "")
    match Program.search scripts fs ((inside.var? "PATH").getD SearchPath.fallback) argv with
    | .error e => (.refused e, fs)
    | .ok (name, argv) =>
      let after := Shell.runNative processLevels name argv
        { files := fs, vars := inside.vars, deadline := limit.map lastLook }
      (endOf limit after, { after.files with cwd := fs.cwd })

/-- **The file system as a run sees it**, with an environment and a time limit for each command. -/
def executor (environment : Environment) (limit : Option Duration) : Executor FileSystem :=
  .launching (fun argv ctx fs => launch environment limit argv ctx.env fs)
    (fun program fs => SearchPath.isFound fs environment.home (environment.var? "PATH") program)
    fun p fs => fs.read p

end LintSuite.Machine
