import LintSuite.Host.SearchPath
import LintSuite.Host.Setup
import LintSuite.Simulator.Process.BlockCopy
import LintSuite.Simulator.Process.Calculation
import LintSuite.Simulator.Process.Columns
import LintSuite.Simulator.Process.Comparison
import LintSuite.Simulator.Process.Edit
import LintSuite.Simulator.Process.Listing
import LintSuite.Simulator.Process.Replacement
import LintSuite.Simulator.Process.Search
import LintSuite.Simulator.Process.Signal

/-!
# Programs

A program is a file that may be executed: one of the system's own, told by a mark, or a script that
names its interpreter.  `Program.resolve` follows the interpreters to a program of the system and
the arguments it gets.

A program is named by a path or looked for in the directories of a search path.  Where it cannot be
started from one directory because it is not there, or may not be executed, the
next one is tried (`Program.search`).
-/

namespace LintSuite

open Host Text

/-- The programs of the system that do not run others. -/
def nativeUtilities : List (String × Utility) :=
  [("[", Utility.bracket), ("basename", Utility.basename), ("cat", Utility.cat),
    ("chmod", Utility.chmod), ("cmp", Utility.cmp), ("comm", Utility.comm), ("cp", Utility.cp),
    ("cut", Utility.cut), ("dd", Utility.dd), ("dirname", Utility.dirname),
    ("echo", Utility.echoPlain),
    ("egrep", Utility.searching (some (some .extended))), ("expr", Utility.expr),
    ("false", Utility.leaving 1), ("fgrep", Utility.searching (some none)), ("find", Utility.find),
    ("fold", Utility.fold), ("grep", Utility.searching none), ("head", Utility.head),
    ("kill", Utility.kill), ("ln", Utility.ln), ("ls", Utility.ls), ("mkdir", Utility.mkdir),
    ("mv", Utility.mv), ("nl", Utility.nl), ("od", Utility.od), ("paste", Utility.paste),
    ("printenv", Utility.printenv), ("printf", Utility.printfProgram), ("pwd", Utility.pwd),
    ("readlink", Utility.readlink), ("realpath", Utility.realpath), ("rev", Utility.rev),
    ("rm", Utility.rm), ("rmdir", Utility.rmdir), ("sed", Utility.sed), ("seq", Utility.seq),
    ("sleep", Utility.sleep), ("sort", Utility.sort), ("tac", Utility.tac), ("tail", Utility.tail),
    ("tee", Utility.tee), ("test", Utility.test "test"), ("touch", Utility.touch),
    ("tr", Utility.tr), ("true", Utility.leaving 0), ("uname", Utility.uname),
    ("uniq", Utility.uniq), ("unlink", Utility.unlink), ("wc", Utility.wc), ("yes", Utility.yes)]

/-- The programs of the system that run others, or look for them. -/
def launchers : List String :=
  ["sh", "dash", "env", "nice", "nohup", "setsid", "timeout", "which", "xargs"]

/-- The names of the programs of the system. -/
def nativeNames : List String := launchers ++ nativeUtilities.map (·.1)

/-- A program file, by what is in it. -/
inductive Program where
  /-- A program of the system. -/
  | native (name : String)
  /-- A script for an interpreter that gets an argument of its own. -/
  | script (interpreter : String) (argument : Option String)
  deriving DecidableEq, Repr

namespace Program

/-- The mark at the front of a program of the system. -/
def mark : List UInt8 := [0x7f, 0x45, 0x4c, 0x46]

/-- The content of a program of the system. -/
def image (name : String) : List UInt8 :=
  mark ++ Octets.ofString name

/-- How much of a file is looked at to see what it is. -/
def headLimit : Nat := 256

/-- Whether a character stands between an interpreter and its argument. -/
def isGap (c : Char) : Bool := c == ' ' || c == '\t'

/-- A text without the gaps at its end. -/
def withoutLastGaps (cs : List Char) : List Char :=
  (cs.reverse.dropWhile isGap).reverse

/-- The script whose first line is a text behind its mark.  The name of its interpreter ends at a
gap, and what follows the gap, perhaps nothing, is an argument. -/
def scriptOf (line : List Char) : Except IoError Program :=
  let named := line.dropWhile isGap
  let interpreter := named.takeWhile (!isGap ·)
  let rest := named.drop interpreter.length
  .ok (.script (String.ofList interpreter)
    (if rest.isEmpty then none else some (String.ofList (rest.dropWhile isGap))))

/-- **The script that the head of a file names**, behind its mark.  The gaps at the end of a line do
not count, but those at the end of a file do; a line without a name is no format, while a file that
ends without one names the directory at hand.  Of a line longer than the head, the name of the
interpreter at least must be complete. -/
def ofHead (whole : Bool) (head : List Char) : Except IoError Program :=
  let line := head.takeWhile fun c => c != '\n' && c != '\x00'
  let isBlank := line.all isGap
  if (head.drop line.length).head? = some '\n' then
    if isBlank then .error .unknownFormat else scriptOf (withoutLastGaps line)
  else if whole || line.length < head.length then
    if isBlank then .error .denied else scriptOf line
  else if isBlank || !(line.dropWhile isGap).any isGap then .error .unknownFormat
  else scriptOf (withoutLastGaps line.dropLast)

/-- **The program in a file.** -/
def ofContent (content : List UInt8) : Except IoError Program :=
  if mark.isPrefixOf content then
    let name := Octets.toText ((content.drop mark.length).take headLimit)
    if nativeNames.contains name then .ok (.native name) else .error .unknownFormat
  else if [0x23, 0x21].isPrefixOf content then
    ofHead (content.length < headLimit) (Octets.chars ((content.take headLimit).drop 2))
  else .error .unknownFormat

/-- The program under a path. -/
def at? (fs : FileSystem) (path : String) : Except IoError Program :=
  match fs.find (Octets.path path) with
  | .ok (_, .file access content) =>
    if access.execute then ofContent content else .error .denied
  | .ok _ => .error .denied
  | .error e => .error e

/-- How many interpreters one program may lead through. -/
def interpreterLimit : Nat := 5

/-- The name of a program of the system, and its arguments, behind some interpreters. -/
def resolveFrom (fs : FileSystem) : Nat → String → List String →
    Except IoError (String × List String)
  | 0, _, _ => .error .linkLoop
  | steps + 1, path, argv => do
    match ← at? fs path with
    | .native name => .ok (name, argv)
    | .script interpreter argument =>
      resolveFrom fs steps interpreter (interpreter :: argument.toList ++ path :: argv.tail)

/-- **Resolving** the program under a path to a program of the system, with the name and the
arguments it gets. -/
def resolve (fs : FileSystem) (path : String) (argv : List String) :
    Except IoError (String × List String) :=
  resolveFrom fs interpreterLimit path argv

/-- Resolving the program under a path, where a file in no known format may count as a script for
the shell. -/
def resolveAs (scripts : Bool) (fs : FileSystem) (path : String) (argv : List String) :
    Except IoError (String × List String) :=
  match resolve fs path argv with
  | .error .unknownFormat =>
    if scripts then .ok ("sh", "/bin/sh" :: path :: argv.tail) else .error .unknownFormat
  | result => result

/-- The first of some paths whose program can be started.  If it is not there, another may be; if
none can be started and one may not be executed, that is the reason. -/
def searchFrom (scripts : Bool) (fs : FileSystem) (argv : List String) (denied : Bool)
    (reason : IoError) : List String → Except IoError (String × List String)
  | [] => .error (if denied then .denied else reason)
  | path :: rest =>
    match resolveAs scripts fs path argv with
    | .ok found => .ok found
    | .error .denied => searchFrom scripts fs argv true .denied rest
    | .error .notFound => searchFrom scripts fs argv denied .notFound rest
    | .error .notDirectory => searchFrom scripts fs argv denied .notDirectory rest
    | .error e => .error e

/-- **Searching** a program by its name, the first of its arguments. -/
def search (scripts : Bool) (fs : FileSystem) (searchPath : String) (argv : List String) :
    Except IoError (String × List String) :=
  searchFrom scripts fs argv false .notFound (SearchPath.candidates searchPath (argv.headD ""))

/-- Whether a file that may be executed lies under a path. -/
def isExecutable (fs : FileSystem) (path : String) : Bool :=
  SearchPath.isExecutable fs (Octets.path path)

end Program

/-- **The file system of a bare system**: its programs, and a file that swallows everything. -/
def bareSystem : FileSystem :=
  FileSystem.empty.putAll <|
    nativeNames.flatMap (fun name =>
      [(.ofText ("/bin/" ++ name), .file true (Program.image name)),
        (.ofText ("/usr/bin/" ++ name), .file true (Program.image name))]) ++
    [(.ofText "/dev/null", .device .null), (.ofText "/dev/zero", .device .zero),
      (.ofText "/dev/full", .device .full), (.ofText "/dev/stdin", .device (.descriptor 0)),
      (.ofText "/dev/stdout", .device (.descriptor 1)),
      (.ofText "/dev/stderr", .device (.descriptor 2)), (.ofText "/tmp", .dir)] ++
    (List.range 10).map fun (n : Nat) =>
      (.ofText ("/dev/fd/" ++ toString n), .device (.descriptor n))

end LintSuite
