import LintSuite.Host.FileSystem
import LintSuite.Settings.Reader
import LintSuite.Settings.Writer
import LintSuite.Text.Utf8

/-!
# The settings file

The settings file is read if there is anything under its path, and made with the defaults otherwise.
That it cannot be made is no fault: the defaults hold all the same.  Reading never changes the file
system.
-/

namespace LintSuite.Settings

open Host Text

/-- Why a settings file cannot be used. -/
inductive FileFault where
  /-- It cannot be read. -/
  | unreadable (p : Path) (e : IoError)
  /-- Its text is refused. -/
  | refused (p : Path) (e : Json.Fault)
  deriving DecidableEq, Repr

/-- The text of the reason. -/
def FileFault.message : FileFault → String
  | .unreadable p e => "failed to read " ++ p.text ++ ": " ++ e.message
  | .refused p e => "failed to parse " ++ p.text ++ ": " ++ e.message

/-- The bytes of a settings text. -/
def bytes (s : Settings) : List UInt8 :=
  Utf8.encode s.written.toList

/-- **Saving** settings, with the directories that the file lies in.  The file system comes back in
any case: on a refusal some of the directories may have been made. -/
def save (s : Settings) (fs : FileSystem) (p : Path) : FileSystem × Option IoError :=
  let (fs, refusal) := match p.parent? with
    | some parent => fs.makeDirs parent
    | none => (fs, none)
  match refusal with
  | some e => (fs, some e)
  | none =>
    match fs.write p s.bytes with
    | .ok after => (after, none)
    | .error e => (fs, some e)

/-- The text of a file. -/
def readFileText (fs : FileSystem) (p : Path) : Except IoError String :=
  match fs.read p with
  | .error e => .error e
  | .ok content =>
    match Utf8.decode? content with
    | some cs => .ok (String.ofList cs)
    | none => .error .notText

/-- The settings of a file that is there. -/
def readFile (fs : FileSystem) (p : Path) : Except FileFault Settings :=
  match readFileText fs p with
  | .error e => .error (.unreadable p e)
  | .ok text =>
    match read text with
    | .ok s => .ok s
    | .error e => .error (.refused p e)

/-- **Loading** the settings file, which is made with the defaults if there is none. -/
def load (fs : FileSystem) (p : Path) : FileSystem × Except FileFault Settings :=
  if fs.exists? p then (fs, readFile fs p) else ((save {} fs p).1, .ok {})

end LintSuite.Settings
