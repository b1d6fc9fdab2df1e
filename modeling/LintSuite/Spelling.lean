import LintSuite.Text.Lowercase
import LintSuite.Tool.Command

/-!
# Spelling of the whole tree

Beside the spelling tool that is handed files, a second one walks the tree by itself.  It is told
which words to ignore, in small letters, as it compares them so, and which files to skip: those the
user names, and after them every file that no tool should read.
-/

namespace LintSuite.Spelling

open Text

/-- The program that checks the spelling of the whole tree. -/
def program : String := "codespell"

/-- What the program always skips. -/
def skippedGlobs : List String :=
  [".git*", "*.db", "*.der", "*.dll", "*.exe", "*.drawio", "*.gif", "*.gz", "*.jar", "*.jpeg",
    "*.jpg", "*.pdf", "*.pem", "*.png", "*.so", "*.tar", "*.tgz", "*.xz", "*.zip", "go.mod",
    "go.sum"]

/-- Whether the program runs on a system. -/
def isSupported (system : String) : Bool :=
  system == "darwin" || system == "linux"

/-- **The command** that checks the spelling of the whole tree. -/
def command (ignore skip : List String) : List String :=
  [program, "-d", "-f"] ++
    (if ignore.isEmpty then [] else ["-L", lower (Tool.commaJoined ignore)]) ++
    ["-S", Tool.commaJoined (skip ++ skippedGlobs)]

/-- Why the spelling of the whole tree is not checked. -/
inductive Fault where
  /-- The program cannot be found. -/
  | notFound
  /-- The system has no such program. -/
  | unsupported (system : String)
  deriving DecidableEq, Repr

/-- The text of the reason. -/
def Fault.message : Fault → String
  | .notFound => "codespell not found in PATH"
  | .unsupported system => "unsupported OS: " ++ system

/-- The command, if it can be run on a host where the program is found or not. -/
def command? (system : String) (found : Bool) (ignore skip : List String) :
    Except Fault (List String) :=
  if !isSupported system then .error (.unsupported system)
  else if found then .ok (command ignore skip)
  else .error .notFound

end LintSuite.Spelling
