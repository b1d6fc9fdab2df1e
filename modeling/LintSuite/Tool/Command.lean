import LintSuite.Path
import LintSuite.RunConfig

/-!
# The commands of the tools

A command is the list of its program and arguments.  A tool's command is that of its catalog entry,
then the flags that the configuration asks for, then what to check: the target for a run over the
whole module, the paths of the files for a run over some of them.
-/

namespace LintSuite.Tool

/-- Texts joined by commas. -/
def commaJoined (words : List String) : String :=
  String.intercalate "," words

/-- The flags that the configuration asks for. -/
def configArgs (t : Tool) (config : RunConfig) : List String :=
  match t with
  | .complexity => ["--over", toString config.complexity.toNat]
  | .style =>
    if config.confidence != defaultConfidence then
      ["-min_confidence", Decimal.render Decimal.plain config.confidence]
    else []
  | .spelling => if config.ignore.isEmpty then [] else ["-i", commaJoined config.ignore]
  | _ => []

/-- What stands in a command before the code to check. -/
def commandHead (t : Tool) (config : RunConfig) : List String :=
  t.entry.command ++ t.configArgs config

/-- **The command of a run over the whole module.** -/
def moduleCommand (t : Tool) (config : RunConfig) : List String :=
  t.commandHead config ++ if t.entry.target.isEmpty then [] else [t.entry.target]

/-- **The command of a run over some files.** -/
def filesCommand (t : Tool) (config : RunConfig) (files : List Path) : List String :=
  t.commandHead config ++ files.map Path.text

end LintSuite.Tool
