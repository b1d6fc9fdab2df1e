import LintSuite.Platform
import LintSuite.Settings.Basic
import LintSuite.Tool

/-!
# What a run is asked to do

The words of the command line select platforms and tools and remove tools again; `Selection` holds
what they named, in order.  The lists of a run have no repeats, an empty selection stands for the
host, if that is a platform, and for all tools, and a removed tool stays out wherever its removal was
named.
-/

namespace LintSuite

/-- A list without the repeats of what already stood before. -/
def distinct {α : Type} [DecidableEq α] (items : List α) : List α :=
  items.foldl (fun seen a => if seen.contains a then seen else seen ++ [a]) []

/-- **What was selected**, in the order in which it was named. -/
structure Selection where
  /-- The platforms named. -/
  platforms : List Platform := []
  /-- The tools named. -/
  tools : List Tool := []
  /-- The tools removed. -/
  removed : List Tool := []
  deriving DecidableEq, Repr

namespace Selection

/-- The platforms of the run: those named, or the host if it is one. -/
def platformList (s : Selection) (system : String) : List Platform :=
  if s.platforms.isEmpty then (Platform.ofName? system).toList else distinct s.platforms

/-- The tools of the run: those named, or all, and of them those that are not removed. -/
def toolList (s : Selection) : List Tool :=
  (if s.tools.isEmpty then Tool.all else distinct s.tools).filter (!s.removed.contains ·)

end Selection

/-- **The configuration of a run.** -/
structure RunConfig where
  /-- The name of the host. -/
  system : String
  /-- The platforms, in order. -/
  platforms : List Platform := (Platform.ofName? system).toList
  /-- The tools, in order. -/
  tools : List Tool := Tool.all
  /-- The greatest length of a line. -/
  length : UInt64 := defaultLength
  /-- The confidence from which style findings are reported. -/
  confidence : Float := defaultConfidence
  /-- The greatest complexity of a function. -/
  complexity : UInt32 := defaultComplexity
  /-- Words that the spelling checks ignore. -/
  ignore : List String := []
  /-- Files and directories that the whole-tree spelling check leaves out. -/
  skip : List String := []
  /-- Files and directories that are left out. -/
  prune : List String := []
  /-- Whether the working directory is the root of a module. -/
  moduleRoot : Bool := false
  /-- Whether C code is compiled too. -/
  cgo : Bool := false
  /-- Whether the commands that are run are logged. -/
  debug : Bool := false
  /-- Whether progress is hidden. -/
  quiet : Bool := false
  /-- The time after which a tool is stopped, if there is one. -/
  timeLimit : Option Duration := some (.ofSeconds defaultTimeout.toNat)
  deriving Repr

/-- The configuration that merged flags and a selection ask for on a host. -/
def RunConfig.of (system : String) (flags : Flags) (selection : Selection) (moduleRoot : Bool) :
    RunConfig where
  system := system
  platforms := selection.platformList system
  tools := selection.toolList
  length := flags.length
  confidence := flags.confidence
  complexity := flags.complexity
  ignore := flags.ignore
  skip := flags.skip
  prune := flags.prune
  moduleRoot := moduleRoot
  cgo := flags.cgo
  debug := flags.debug
  quiet := flags.quiet
  timeLimit := flags.timeLimit

end LintSuite
