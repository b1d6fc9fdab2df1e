import LintSuite.Run

/-!
# Installing the tools

The tools are installed one after another with the compiler's own installer, each in its newest
version.  The spelling check of the whole tree is not among them: it comes with the system, and the
user is told how to get it.
-/

namespace LintSuite.Install

/-- The command that installs a tool, up to the name of what is installed. -/
def installer : List String :=
  ["go", "install", "--buildvcs=false", "--ldflags=-s -w", "--trimpath"]

/-- The tools that are installed, with the packages they come in. -/
def packages : List (String × String) :=
  [("gocyclo", "github.com/fzipp/gocyclo/cmd/gocyclo"),
    ("gofumpt", "mvdan.cc/gofumpt"),
    ("golint", "golang.org/x/lint/golint"),
    ("ineffassign", "github.com/gordonklaus/ineffassign"),
    ("misspell", "github.com/client9/misspell/cmd/misspell"),
    ("staticcheck", "honnef.co/go/tools/cmd/staticcheck")]

/-- The package managers of Linux, the preferred ones first, with what installs the spelling check
of the whole tree. -/
def managers : List (String × String) :=
  [("apk", "sudo apk add py3-codespell"),
    ("yay", "yay -S codespell"),
    ("pacman", "sudo pacman -S codespell"),
    ("apt-get", "sudo apt-get install codespell"),
    ("apt", "sudo apt install codespell"),
    ("zypper", "sudo zypper in codespell"),
    ("dnf", "sudo dnf install codespell"),
    ("yum", "sudo yum install codespell")]

/-- The command that installs a package. -/
def command (package : String) : List String :=
  installer ++ [package ++ "@latest"]

/-- What asks the user to run a command. -/
def pleaseRun (command : String) : String :=
  "Please run \"" ++ command ++ "\"."

/-- **What the user is told** about the spelling check of the whole tree on a system: nothing if it
is there. -/
def hints (system : String) (available : String → Bool) : List String :=
  if system == "windows" then ["spellcheck tool for " ++ system ++ " not implemented"]
  else if system == "darwin" && !available Spelling.program then
    [pleaseRun "brew install codespell"]
  else if system == "linux" && !available Spelling.program then
    match managers.find? (available ·.1) with
    | some (_, command) => [pleaseRun command]
    | none => ["Unknown package manager.", "Please install codespell."]
  else []

variable {σ : Type} (x : Executor σ) (normalizer : Normalizer) (system : String)

/-- Installing one tool, which is announced first. -/
def installTool (tool : String × String) (s : σ) : List Event × σ :=
  let (found, after) := runCommand x normalizer (command tool.2) (.host system) s
  (.step (tool.1 ++ "...") :: found.map .diagnostic, after)

/-- **An installation** on a host: its events, and the world after it. -/
def install (s : σ) : List Event × σ :=
  let (events, after) := goThrough (installTool x normalizer system) packages s
  (.info "Installing newest versions of each tool..." :: events ++
    (hints system (x.isAvailable · after)).map (.diagnostic <| .warn ·), after)

end LintSuite.Install
