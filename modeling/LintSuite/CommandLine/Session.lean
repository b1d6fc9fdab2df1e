import LintSuite.CommandLine.Action
import LintSuite.CommandLine.Help
import LintSuite.CommandLine.Options
import LintSuite.Install
import LintSuite.ModuleRoot
import LintSuite.Report
import LintSuite.Settings.File
import LintSuite.Survey

/-!
# A session

A session is what happens from a command line to the exit status.  It has two parts.  `prepare`
checks what is asked for and decides: either the session is over, or there is a `Task`.  It executes
nothing and stays in the working directory; all it may do to the file system is make a settings
file, and it looks for that only once the words of the command line are in order.  `Task.perform`
then does the work: it enters the root of the module, surveys the tree, and runs.

A session records the commands that it executes.
-/

namespace LintSuite.CommandLine

open Host Text

/-- The version of the program. -/
def version : String := "0.4.1"

/-- **How a session ends.** -/
inductive ExitStatus where
  /-- Well. -/
  | good
  /-- With an option that is refused. -/
  | invalidOption
  /-- Without an option that is needed. -/
  | missingOption
  /-- With a word that is unknown. -/
  | invalidArgument
  /-- Without a word that is needed. -/
  | missingArgument
  /-- With a word too much. -/
  | extraArgument
  /-- With a refusal of the system. -/
  | exception
  deriving DecidableEq, Repr

/-- The number of an exit status. -/
def ExitStatus.code : ExitStatus → Nat
  | .good => 0
  | .invalidOption => 1
  | .missingOption => 2
  | .invalidArgument => 3
  | .missingArgument => 4
  | .extraArgument => 5
  | .exception => 6

/-- The exit status for a command line that cannot be read. -/
def Stop.exitStatus : Stop → ExitStatus
  | .help => .good
  | .unwantedValue _ _ _ => .extraArgument
  | _ => .invalidOption

/-- **What a session shows** when it is over. -/
structure Ending where
  /-- The exit status. -/
  status : ExitStatus
  /-- The text on standard output. -/
  output : String := ""
  /-- The lines on standard error. -/
  errors : List String := []
  deriving DecidableEq, Repr

namespace Ending

/-- The end with an error. -/
def failed (status : ExitStatus) (color : Bool) (message : String) : Ending :=
  { status, errors := [Tag.error.line color message] }

/-- The end for a command line that cannot be read, with styles or without. -/
def ofStop (styled : Bool) : Stop → Ending
  | .help => { status := .good, output := briefHelp styled }
  | stop => { status := stop.exitStatus, errors := stop.lines.map (Styled.printed styled) }

/-- The end for a word that is unknown. -/
def ofUnknown (color : Bool) (word : String) : Ending where
  status := .invalidArgument
  errors := [Tag.error.line color ("Invalid argument: " ++ word),
    "Run 'gocomplain help' for usage"]

/-- The end with the help text, with styles or without. -/
def help (styled : Bool) : Ending := { status := .good, output := spreadHelp styled }

/-- The end with the version. -/
def version : Ending where
  status := .good
  output := "gocomplain version " ++ CommandLine.version ++ "\n"

end Ending

/-- **What a session knows** of its surroundings. -/
structure Surroundings where
  /-- The name of the host. -/
  system : String
  /-- Whether reports are colored unless the command line forbids it. -/
  color : Bool
  /-- Whether help and refusals are written in styles. -/
  styled : Bool
  /-- Where the settings file lies, if there is a place for it. -/
  settingsPath : Option Path
  /-- Executing commands, with a time limit for each. -/
  executor : Option Duration → Executor FileSystem

/-- The place of the settings file in an environment: below the directory for configurations if that
is an absolute path, else below the home directory. -/
def settingsPath (var? : String → Option String) : Option Path :=
  let below := fun (dir : Path) => (dir.join (.ofText "gocomplain")).join (.ofText "rc")
  match ((var? "XDG_CONFIG_HOME").map Path.ofText).filter Path.isAbsolute with
  | some dir => some (below dir)
  | none =>
    match (var? "HOME").filter (!·.isEmpty) with
    | some home => some (below ((Path.ofText home).join (.ofText ".config")))
    | none => none

/-- Whether reports that go to no terminal are colored in an environment. -/
def isColored (var? : String → Option String) : Bool :=
  ((var? "CLICOLOR_FORCE").map (· != "0")).getD false

/-- Whether help and refusals that go to no terminal are written in styles in an environment: if
that is asked for and not forbidden.  A variable without a value asks and forbids nothing. -/
def isStyled (var? : String → Option String) : Bool :=
  let isGiven := fun name => ((var? name).map (!·.isEmpty)).getD false
  isGiven "CLICOLOR_FORCE" && !isGiven "NO_COLOR"

/-- **What is to be done** after the checks. -/
inductive Task where
  /-- Installing the tools. -/
  | install (flags : Flags)
  /-- Checking the tree. -/
  | check (flags : Flags) (selection : Selection)

/-- What the words of a command line ask for, if they are in order. -/
inductive Request where
  /-- Showing the version. -/
  | version
  /-- Installing the tools. -/
  | install
  /-- Checking the tree. -/
  | check (selection : Selection)

/-- Whether output is colored in a session. -/
def Surroundings.colorFor (around : Surroundings) (given : Options) : Bool :=
  around.color && !given.has .noColor

/-- **The words of a command line**: what they ask for, or how the session ends. -/
def request (color styled : Bool) (given : Options) : Except Ending Request :=
  match ActionWord.ofWords given.actions with
  | .error word => .error (.ofUnknown color word)
  | .ok words =>
    if words.contains .help then .error (.help styled)
    else if words.contains .install && words.length != 1 then
      .error (.failed .extraArgument color "install takes no other actions")
    else if given.has .version || words.contains .version then .ok .version
    else if words.contains .install then .ok .install
    else .ok (.check (ActionWord.selection words))

/-- The settings of a session, and the file system after looking for them. -/
def loadSettings (around : Surroundings) (fs : FileSystem) :
    FileSystem × Except Settings.FileFault Settings :=
  match around.settingsPath with
  | some p => Settings.load fs p
  | none => (fs, .ok {})

/-- What is to be done about a request with settings, or how the session ends. -/
def taskOf (color : Bool) (given : Options) (asked : Request) :
    Except Settings.FileFault Settings → Except Ending Task
  | .error e => .error (.failed .invalidOption color e.message)
  | .ok settings =>
    let flags := given.flags.merge settings
    match flags.check with
    | .error e => .error (.failed .invalidOption color e.message)
    | .ok _ =>
      match asked with
      | .version => .error .version
      | .install => .ok (.install flags)
      | .check selection => .ok (.check flags selection)

/-- **Checking what is asked for**: the file system after it, and either a task or the end. -/
def prepare (around : Surroundings) (given : Options) (fs : FileSystem) :
    FileSystem × Except Ending Task :=
  let color := around.colorFor given
  match request color around.styled given with
  | .error ending => (fs, .error ending)
  | .ok asked =>
    let (after, settings) := loadSettings around fs
    (after, taskOf color given asked settings)

/-- **What has happened** in a session. -/
structure Record where
  /-- How it ended. -/
  ending : Ending
  /-- The commands that were executed, the first one first. -/
  calls : List Call
  /-- The file system, seen from the working directory of the session. -/
  files : FileSystem

/-- The good end of a session that has printed some lines. -/
def Ending.ofLines (lines : List String) : Ending :=
  { status := .good, output := asText lines }

/-- The normalizer for messages about a tree that is seen from its working directory. -/
def normalizerFor (fs : FileSystem) : Normalizer := .ofDir (some fs.workingDir)

namespace Task

/-- Installing. -/
def performInstall (around : Surroundings) (color : Bool) (flags : Flags) (fs : FileSystem) :
    Record :=
  let x := (around.executor flags.timeLimit).recording
  let (events, after) := Install.install x (normalizerFor fs) around.system (fs, [])
  let reporter : Reporter := { quiet := flags.quiet, color }
  ⟨.ofLines (reporter.handleAll events).1, after.2, after.1⟩

/-- Checking the tree below the working directory, which is the root of a module or not. -/
def performCheck (around : Surroundings) (color : Bool) (flags : Flags) (selection : Selection)
    (moduleRoot : Bool) (fs : FileSystem) : Record :=
  let config := RunConfig.of around.system flags selection moduleRoot
  let x := (around.executor config.timeLimit).recording
  let sets := survey fs config.prune .here
  let (events, after) := run x (normalizerFor fs) config sets (fs, [])
  let (lines, reporter) := ({ quiet := flags.quiet, color } : Reporter).handleAll events
  ⟨.ofLines (lines ++ reporter.done), after.2, after.1⟩

/-- **Doing the work.** -/
def perform (around : Surroundings) (color : Bool) (fs : FileSystem) : Task → Record
  | .install flags => performInstall around color flags fs
  | .check flags selection =>
    match enterRoot fs with
    | .error e => ⟨.failed .exception color e.message, [], fs⟩
    | .ok (moduleRoot, inside) => performCheck around color flags selection moduleRoot inside

end Task

/-- **A session** with options that have been read. -/
def session (around : Surroundings) (given : Options) (fs : FileSystem) : Record :=
  match prepare around given fs with
  | (after, .error ending) => ⟨ending, [], after⟩
  | (after, .ok task) => task.perform around (around.colorFor given) after

/-- **A session**, from the arguments of the program. -/
def sessionOf (around : Surroundings) (arguments : List String) (fs : FileSystem) : Record :=
  match parse arguments with
  | .error stop => ⟨.ofStop around.styled stop, [], fs⟩
  | .ok given => session around given fs

end LintSuite.CommandLine
