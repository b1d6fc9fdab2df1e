import LintSuite.Command
import LintSuite.Host.FileSystem
import LintSuite.Simulator.Process.Feed
import LintSuite.Simulator.Process.Job
import LintSuite.Simulator.Shell.Script
import LintSuite.Simulator.Text.Octets

/-!
# Processes

A process is what a program has in front of it while it runs: its arguments, its variables, and
where its descriptors lead; with it goes what all processes share, the file system, the channels
that take what is printed, and the feeds that are read.

A program is a function on processes.  One process starts another by handing on a changed copy of
itself and taking back what is shared (`Process.rejoin`), so what a child does to its own variables
or its working directory is lost with it, and what it prints or writes is not.

Each process has a clock.  Time passes only where something takes time, and a process that waits for
another goes on when that one has ended.  What is printed is stamped with the time, so that
processes side by side can be run one after another: their output is put in order in the end.  A
process that has not ended when its time is over is *overdue*, and so is one that has used up its
patience, the number of rounds that its loops may take; nothing more happens in an overdue process.
-/

namespace LintSuite

open Host Text

/-- Where a descriptor leads. -/
inductive Stream where
  /-- To a channel, by its number. -/
  | channel (n : Nat)
  /-- To the end of a file. -/
  | file (location : Location)
  /-- Nowhere. -/
  | nowhere
  /-- Where nothing can be printed, for want of space. -/
  | full
  /-- To a feed, by its number. -/
  | feed (n : Nat)
  deriving DecidableEq, Repr

/-- A variable. -/
structure Variable where
  /-- Its name. -/
  name : String
  /-- Its value. -/
  value : String
  /-- Whether children get it. -/
  exported : Bool
  /-- Whether it may not be changed. -/
  fixed : Bool := false
  /-- Whether it has its value yet. -/
  isSet : Bool := true
  deriving DecidableEq, Repr

/-- Where a process stands. -/
inductive Flow where
  /-- It goes on. -/
  | onward
  /-- It leaves a loop, and a number of loops around it. -/
  | leaving (loops : Nat)
  /-- It goes on with the next round of a loop, and leaves a number of loops inside it. -/
  | skipping (loops : Nat)
  /-- It goes back from a function or a file of commands. -/
  | returning
  /-- It has ended, in its state. -/
  | ended
  /-- It was ended by a signal. -/
  | killed (signal : Nat)
  /-- It has not ended in time. -/
  | overdue
  deriving DecidableEq, Repr

/-- A signal on its way to a process. -/
structure Signalled where
  /-- When it is sent. -/
  time : Nat
  /-- The number of the process. -/
  target : Nat
  /-- The signal. -/
  signal : Nat
  deriving DecidableEq, Repr

/-- The signal that a child has ended. -/
def Signal.child : Nat := 17

/-- The row of a table of some rows that a shell keeps something in, by its name. -/
def rowOf (rows : Nat) (name : String) : Nat :=
  let bytes := (Octets.ofString name).map (·.toNat)
  (16 * bytes.headD 0 + bytes.foldl (· + ·) 0) % rows

/-- The row of a table of 39 rows. -/
def tableRow (name : String) : Nat := rowOf 39 name

/-- **Variables in the order in which a shell hands them on**: row by row. -/
def Variable.inRows (vars : List Variable) : List Variable :=
  vars.mergeSort fun v w => tableRow v.name ≤ tableRow w.name

/-- The number of the first process. -/
def firstNumber : Nat := 4711

/-- **A process.** -/
structure Process where
  /-- The files, seen from the working directory. -/
  files : FileSystem
  /-- What went to the channels, by their numbers, the latest first. -/
  channels : List (List Chunk) := [[], []]
  /-- The feeds, by their numbers. -/
  feeds : List Feed := [{}]
  /-- How many processes have been started. -/
  births : Nat := 0
  /-- The signals that are on their way. -/
  signals : List Signalled := []
  /-- The rounds that loops may still take. -/
  patience : Nat := 200000
  /-- The time that has passed, in microseconds. -/
  elapsed : Nat := 0
  /-- The time when it must have ended. -/
  deadline : Option Nat := none
  /-- Its number, which a shell shares with its subshells. -/
  number : Nat := firstNumber
  /-- The number of the process that started it. -/
  parent : Nat := 1
  /-- Whether it is a subshell. -/
  nested : Bool := false
  /-- Whether it is there for one command only, and ends as that does. -/
  single : Bool := false
  /-- The job that it belongs to, or zero. -/
  job : Nat := 0
  /-- The name it goes by. -/
  name : String := ""
  /-- Its arguments. -/
  arguments : List String := []
  /-- Its variables. -/
  vars : List Variable := []
  /-- Where the open descriptors lead. -/
  descriptors : List (Nat × Stream) := [(0, .feed 0), (1, .channel 0), (2, .channel 1)]
  /-- Why something could not be printed. -/
  unprinted : Option String := none
  /-- The working directory, by the path that a shell has come by. -/
  directory : String := ""
  /-- The line of its script. -/
  line : Nat := 0
  /-- What its commands come from, if not from its script: a file of commands, or a command of the
  shell that runs texts. -/
  origin : Option String := none
  /-- The switches that are on, by their letters. -/
  options : List Char := []
  /-- The rights that new files do not get. -/
  mask : Nat := 18
  /-- The place of the argument that is looked at next for options. -/
  optionPlace : Nat := 1
  /-- How many characters of the argument before it have been taken, if it has more. -/
  optionTaken : Option Nat := none
  /-- The state of the last command. -/
  status : Nat := 0
  /-- The state of the last script whose output was put into a word. -/
  substituted : Nat := 0
  /-- How many loops it is inside of. -/
  loops : Nat := 0
  /-- The aliases of its script. -/
  aliases : List (String × String) := []
  /-- The names of the programs that it has found, and whether it has to look for them again. -/
  hashed : List (String × Bool) := []
  /-- The functions of its script. -/
  functions : List (String × Shell.Command) := []
  /-- How many functions it is inside of. -/
  calls : Nat := 0
  /-- What the variables of a function were before it, if it is inside of one. -/
  locals : Option (List (String × Option Variable)) := none
  /-- What to do on a signal, or, for zero, at the end. -/
  traps : List (Nat × String) := []
  /-- The state in which it was when it began to do what it was told to do on a signal or at its
  end. -/
  held : Option Nat := none
  /-- The commands beside it, the last one first. -/
  jobs : List Job := []
  /-- The number of the last job. -/
  lastJob : Option Nat := none
  /-- Where it stands. -/
  flow : Flow := .onward
  /-- Whether a fault of its script has ended it. -/
  faulty : Bool := false

namespace Process

/-! ### Printing -/

/-- The process after some bytes have gone where a descriptor leads. -/
def send (p : Process) (bytes : List UInt8) : Stream → Process
  | .channel n =>
    { p with channels := p.channels.modify n (⟨p.elapsed, p.job, bytes⟩ :: ·) }
  | .file location =>
    match p.files.root.get? location with
    | some (.file access content) =>
      { p with files.root := p.files.root.set (.file access (content ++ bytes)) location }
    | _ => p
  | .nowhere => p
  | .full => { p with unprinted := "No space left on device" }
  | .feed _ => { p with unprinted := "Bad file descriptor" }

/-- Where a descriptor leads. -/
def stream? (p : Process) (descriptor : Nat) : Option Stream :=
  (p.descriptors.find? (·.1 == descriptor)).map (·.2)

/-- Where a device leads. -/
def deviceStream? (p : Process) : Device → Option Stream
  | .null => some .nowhere
  | .zero => some .nowhere
  | .full => some .full
  | .descriptor n => p.stream? n

/-- The process with a descriptor that leads somewhere, or is closed. -/
def redirect (p : Process) (descriptor : Nat) (target : Option Stream) : Process :=
  { p with
    descriptors := (target.map (descriptor, ·)).toList ++
      p.descriptors.filter (·.1 != descriptor) }

/-- **Printing** bytes to a descriptor. -/
def emit (p : Process) (descriptor : Nat) (bytes : List UInt8) : Process :=
  if bytes.isEmpty then p
  else match p.stream? descriptor with
    | some stream => p.send bytes stream
    | none => { p with unprinted := "Bad file descriptor" }

/-- Printing a text to standard output. -/
def print (p : Process) (text : String) : Process :=
  p.emit 1 (Octets.ofString text)

/-- Printing a line to standard error. -/
def complain (p : Process) (text : String) : Process :=
  let unprinted := p.unprinted
  { p.emit 2 (Octets.ofString (text ++ "\n")) with unprinted }

/-- Printing a line about a script to standard error. -/
def warn (p : Process) (text : String) : Process :=
  let origin := match p.origin with
    | some name => name ++ ": "
    | none => ""
  p.complain (p.name ++ ": " ++ toString p.line ++ ": " ++ origin ++ text)

/-! ### Ending -/

/-- The process with the state of its last command. -/
def withStatus (p : Process) (n : Nat) : Process := { p with status := n }

/-- The process ended in a state. -/
def endWith (p : Process) (n : Nat) : Process := { p with status := n, flow := .ended }

/-- The process ended by a fault of its script. -/
def abort (p : Process) (text : String) : Process := { (p.warn text).endWith 2 with faulty := true }

/-- Whether a process goes on. -/
def isOnward (p : Process) : Bool := p.flow == .onward

/-- The process after some time.  What takes longer than there is time is not seen to end. -/
def pass (p : Process) (micros : Nat) : Process :=
  let after := { p with elapsed := p.elapsed + micros }
  if p.deadline.any (· < after.elapsed) then { after with flow := .overdue } else after

/-- The process when a time has come. -/
def waitUntil (p : Process) (time : Nat) : Process := p.pass (time - p.elapsed)

/-! ### Reading -/

/-- The process with a feed that a descriptor leads to. -/
def withFeed (p : Process) (descriptor : Nat) (feed : Feed) : Process :=
  { p with feeds := p.feeds ++ [feed] }.redirect descriptor (some (.feed p.feeds.length))

/-- The feed that a descriptor leads to, and its number. -/
def feed? (p : Process) (descriptor : Nat) : Option (Nat × Feed) :=
  match p.stream? descriptor with
  | some (.feed n) => p.feeds[n]?.map (n, ·)
  | some .nowhere => some (p.feeds.length, {})
  | _ => none

/-- **Reading** a portion of what a descriptor leads to.  Whoever meets the end of an endless feed
does not come back. -/
def take (p : Process) (descriptor : Nat) (portion : Feed → Feed.Portion) :
    Option (Feed.Portion × Process) :=
  (p.feed? descriptor).map fun (n, feed) =>
    let taken := portion feed
    let p := { p with feeds := p.feeds.modify n ({ · with chunks := taken.rest }) }
    let p := p.waitUntil (if taken.ended then max taken.time feed.closed else taken.time)
    (taken, if taken.ended && feed.endless then { p with flow := .overdue } else p)

/-- Everything that is left of standard input. -/
def takeInput (p : Process) : List UInt8 × Process :=
  match p.take 0 Feed.takeAll with
  | some (portion, p) => (portion.bytes, p)
  | none => ([], p)

/-! ### Variables -/

/-- The value of a variable. -/
def var? (p : Process) (name : String) : Option String :=
  (p.vars.find? fun v => v.name == name && v.isSet).map (·.value)

/-- The process with a variable changed, which is there without a value if it was not there. -/
def changeVar (p : Process) (name : String) (f : Variable → Variable) : Process :=
  if p.vars.any (·.name == name) then
    { p with vars := p.vars.map fun v => if v.name == name then f v else v }
  else { p with vars := p.vars ++ [f { name, value := "", exported := false, isSet := false }] }

/-- The process when the place among the arguments where options are looked for is said. -/
def withOptionPlace (p : Process) (text : String) : Process :=
  { p with optionPlace := max 1 ((Numeral.small? text).getD 1), optionTaken := none }

/-- The process with a variable set, which children get if they get all variables. -/
def setVar (p : Process) (name value : String) : Process :=
  let all := p.options.contains 'a'
  let after := p.changeVar name fun v =>
    { v with value, isSet := true, exported := v.exported || all }
  if name = "OPTIND" then after.withOptionPlace value
  else if name = "PATH" then { after with hashed := [] }
  else after

/-- The process with other arguments, among which options are looked for from the first one on. -/
def withArguments (p : Process) (arguments : List String) : Process :=
  { p with arguments, optionPlace := 1, optionTaken := none }

/-- The process with a variable that children get. -/
def exportVar (p : Process) (name : String) : Process :=
  p.changeVar name fun v => { v with exported := true }

/-- The process without a variable. -/
def unsetVar (p : Process) (name : String) : Process :=
  { p with vars := p.vars.filter (·.name != name) }

/-- The process with a variable as it was before. -/
def restoreVar (p : Process) : String × Option Variable → Process
  | (name, some v) =>
    let after := { p with vars := v :: p.vars.filter (·.name != name) }
    if name = "OPTIND" then after.withOptionPlace v.value else after
  | (name, none) => p.unsetVar name

/-- Whether a variable may not be changed. -/
def isFixed (p : Process) (name : String) : Bool :=
  p.vars.any fun v => v.name == name && v.fixed

/-- What is wrong with giving a variable a value, if anything is. -/
def assignmentFault? (p : Process) (name value : String) : Option String :=
  if p.isFixed name then some (name ++ ": is read only")
  else if name = "OPTIND" && (Numeral.small? value).isNone then some ("Illegal number: " ++ value)
  else none

/-- The process with a function. -/
def define (p : Process) (name : String) (body : Shell.Command) : Process :=
  { p with functions := (name, body) :: p.functions.filter (·.1 != name) }

/-- The process with a variable set that children get. -/
def setExported (p : Process) (name value : String) : Process :=
  (p.setVar name value).exportVar name

/-! ### Children -/

/-- How long it takes to start a process, in microseconds. -/
def forkTime : Nat := 300

/-- The process as another one starts from it. -/
def fork (p : Process) : Process :=
  { p with births := p.births + 1 }.pass forkTime

/-- The process as a program takes its place.  Of what a shell knows only what is ignored is handed
on. -/
def successor (p : Process) : Process :=
  { p with
    vars := Variable.inRows (p.vars.filter fun v => v.exported && v.isSet)
    nested := false, single := false
    options := [], optionPlace := 1, optionTaken := none, held := none, line := 0, origin := none, status := 0, loops := 0
    aliases := [], hashed := [], functions := [], calls := 0, locals := none, jobs := [], lastJob := none
    traps := p.traps.filter (·.2.isEmpty) }

/-- The process as a program starts from it, with a number of its own. -/
def child (p : Process) : Process :=
  let next := if p.single then p else p.fork
  { next.successor with number := firstNumber + next.births, parent := p.number }

/-- The process as a subshell starts from it.  Only what is ignored stays ignored. -/
def subshell (p : Process) : Process :=
  { p.fork with nested := true, single := false, jobs := [], traps := p.traps.filter (·.2.isEmpty) }

/-- Whether a process was told to do something on a signal. -/
def acts (p : Process) (signal : Nat) : Bool :=
  p.traps.any fun t => t.1 == signal && !t.2.isEmpty

/-- **Taking back** what is shared from a child that has ended. -/
def rejoin (p child : Process) : Process :=
  { p with
    files := { child.files with cwd := p.files.cwd }
    channels := child.channels
    feeds := child.feeds
    births := child.births
    signals := child.signals ++ (if p.acts Signal.child then
      [⟨p.elapsed, p.number, Signal.child⟩] else [])
    patience := child.patience
    elapsed := child.elapsed
    jobs := (Job.vacancy p.elapsed p.jobs).2
    status := match child.flow with
      | .killed signal => 128 + signal
      | _ => child.status % 256
    flow := match child.flow with
      | .overdue => .overdue
      | _ => p.flow }

/-- **What a function on processes prints**: it runs in a child with a channel of its own for
standard output, which is taken away when everything that prints to it has ended.  With the chunks
comes the child. -/
def capture (p : Process) (run : Process → Process) : List Chunk × Process :=
  let channel := p.channels.length
  let child := run
    ({ p with channels := p.channels ++ [[]] }.redirect 1 (some (.channel channel)))
  (child.channels.getD channel [], { child with channels := child.channels.take channel })

end Process

end LintSuite
