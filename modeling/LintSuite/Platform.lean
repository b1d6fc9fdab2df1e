/-!
# Platforms

A tool is run for a platform by way of its environment: the overrides name the target system and,
where C code is compiled too, the compiler.  The overrides belong to one command each; nothing of
one platform is left when the next one comes.

The *host*, the system the checker itself runs on, is settled when it is built and is a parameter
here, by its name.  It need not be a platform (`Platform.ofName?`), and tools are run for it all the
same.
-/

namespace LintSuite

/-- **A platform** the tools can be run for. -/
inductive Platform where
  /-- macOS. -/
  | darwin
  /-- Linux. -/
  | linux
  /-- Windows. -/
  | windows
  deriving DecidableEq, Repr

namespace Platform

/-- All platforms. -/
def all : List Platform := [.darwin, .linux, .windows]

/-- The name of a platform. -/
def name : Platform → String
  | .darwin => "darwin"
  | .linux => "linux"
  | .windows => "windows"

/-- The platform of a name. -/
def ofName? (text : String) : Option Platform :=
  all.find? (·.name == text)

end Platform

/-- The compiler of C code for Windows. -/
def windowsCompiler : String := "x86_64-w64-mingw32-gcc"

/-- **The context of a command**: its target system and the environment it adds. -/
structure RunContext where
  /-- The name of the target system. -/
  target : String
  /-- The variables set for the command, in order. -/
  env : List (String × String)
  deriving DecidableEq, Repr

namespace RunContext

/-- The context for a platform, with a C compiler if `cgo` is set. -/
def forPlatform (p : Platform) (cgo : Bool) : RunContext where
  target := p.name
  env := ("GOOS", p.name) ::
    if cgo then
      [("CC", match p with | .windows => windowsCompiler | _ => ""), ("CGO_ENABLED", "1")]
    else []

/-- The context for the host. -/
def host (system : String) : RunContext :=
  ⟨system, [("GOOS", system)]⟩

/-- The value of a variable, if the context sets it. -/
def var? (ctx : RunContext) (key : String) : Option String :=
  (ctx.env.find? (·.1 == key)).map (·.2)

end RunContext

end LintSuite
