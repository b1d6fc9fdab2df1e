import LintSuite.Command
import LintSuite.LineLength.Scan
import LintSuite.Spelling
import LintSuite.Tool.Command

/-!
# A run

A run is two loops.  The first goes through the platforms, and for each of them through the tools
whose findings depend on the platform; the second goes through the other tools, once, for the host.
What a tool does depends on its mode (`Tool.run`): it scans files itself, or executes one command, or
a command for each directory, one after another.

Everything is threaded through the world: each command finds it as the one before has left it, and
what a tool finds is handed on before the next tool is announced.  No loop looks at what was found.
-/

namespace LintSuite

open Host LineLength

section Loops

variable {α β σ : Type}

/-- **Going through a list** in a world: each element is dealt with in the world that the one before
has left, and what comes of them is put together. -/
def goThrough (f : α → σ → List β × σ) : List α → σ → List β × σ
  | [], s => ([], s)
  | a :: rest, s =>
    let (found, after) := f a s
    let (more, last) := goThrough f rest after
    (found ++ more, last)

variable (x : Executor σ) (normalizer : Normalizer)

/-- Running a command: its diagnostics, and the world after it. -/
def runCommand (argv : List String) (ctx : RunContext) (s : σ) : List Diagnostic × σ :=
  let (result, after) := x.execute argv ctx s
  (findings normalizer result, after)

variable (config : RunConfig)

/-- Checking the spelling of the whole tree, if the program for it can be run. -/
def spellTree (ctx : RunContext) (s : σ) : List Diagnostic × σ :=
  match Spelling.command? config.system (x.isAvailable Spelling.program s) config.ignore
      config.skip with
  | .ok argv => runCommand x normalizer argv ctx s
  | .error e => ([.warn e.message], s)

variable (sets : FileSets)

namespace Tool

/-- The sets of files a tool looks at when it is handed files. -/
def groups (t : Tool) (sets : FileSets) : List FileSet :=
  if t = .spelling then sets.all else sets.code

/-- The directories that a tool is handed one after another. -/
def buckets (t : Tool) (sets : FileSets) : List Bucket :=
  (t.groups sets).flatMap FileSet.buckets

/-- **Running a tool** in a context: what it finds, and the world after it. -/
def run (t : Tool) (ctx : RunContext) (s : σ) : List Diagnostic × σ :=
  match t.mode config.moduleRoot with
  | .inProcess =>
    ((sets.code.flatMap FileSet.paths).flatMap fun p =>
      scanRead config.length.toNat p (x.read p s), s)
  | .wholeModule => runCommand x normalizer (t.moduleCommand config) ctx s
  | .perFileGroup =>
    let (found, after) := goThrough
      (fun (b : Bucket) => runCommand x normalizer (t.filesCommand config b.paths) ctx)
      (t.buckets sets) s
    if t = .spelling then
      let (more, last) := spellTree x normalizer config ctx after
      (found ++ more, last)
    else (found, after)

/-- Running a tool that is announced first, as events. -/
def runAnnounced (announced : Event) (t : Tool) (ctx : RunContext) (s : σ) : List Event × σ :=
  let (found, after) := t.run x normalizer config sets ctx s
  (announced :: found.map .diagnostic, after)

end Tool

/-- The contexts of the platforms, or that of the host if there is no platform. -/
def RunConfig.contexts : List RunContext :=
  if config.platforms.isEmpty then [.host config.system]
  else config.platforms.map (RunContext.forPlatform · config.cgo)

/-- Running every tool that depends on the platform, for one platform. -/
def runPlatform (ctx : RunContext) (s : σ) : List Event × σ :=
  let (events, after) := goThrough
    (fun (t : Tool) => t.runAnnounced x normalizer config sets (.step t.entry.progress) ctx)
    (config.tools.filter (!·.isPlatformIndependent)) s
  (.info ("Setting GOOS to " ++ ctx.target) :: events, after)

/-- Running every tool that depends on no platform. -/
def runOnHost (s : σ) : List Event × σ :=
  goThrough
    (fun (t : Tool) =>
      t.runAnnounced x normalizer config sets (.info t.entry.progress) (.host config.system))
    (config.tools.filter (·.isPlatformIndependent)) s

/-- **A run**: its events in the order in which they happen, and the world after it. -/
def run (s : σ) : List Event × σ :=
  let (events, after) := goThrough (runPlatform x normalizer config sets) config.contexts s
  let (more, last) := runOnHost x normalizer config sets after
  (events ++ more, last)

end Loops

end LintSuite
