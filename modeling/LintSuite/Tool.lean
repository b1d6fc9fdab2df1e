/-!
# The tools

The catalog of the checks that the suite knows how to run.  Each tool has an entry that says what it
is called, which command runs it, and how: a tool that resolves packages runs once over a whole
module and, outside of one, directory by directory; the line scan runs no command at all.

`Tool.all` is the order in which tools run by default; `Tool.ofWord?` resolves the names and the
shorthands of the command line.
-/

namespace LintSuite

/-- **A check** that the suite can run. -/
inductive Tool where
  /-- The standard formatter. -/
  | format
  /-- The stricter formatter. -/
  | strictFormat
  /-- The complexity check. -/
  | complexity
  /-- The check for assignments without effect. -/
  | deadAssignment
  /-- The style check. -/
  | style
  /-- The vet of the compiler's own tool chain. -/
  | vet
  /-- The line scan. -/
  | lineLength
  /-- The spelling check. -/
  | spelling
  /-- The static analysis. -/
  | staticAnalysis
  deriving DecidableEq, Repr

/-- What kind of check a tool performs. -/
inductive ToolKind where
  /-- Lays code out in a set way. -/
  | formatter
  /-- Measures the complexity of functions. -/
  | complexityChecker
  /-- Judges style. -/
  | linter
  /-- Looks for suspicious constructs. -/
  | vetChecker
  /-- Looks for assignments without effect. -/
  | deadAssignmentChecker
  /-- Analyses code without running it. -/
  | staticAnalyzer
  /-- Checks spelling. -/
  | spellChecker
  /-- Measures lines. -/
  | lineLengthChecker
  deriving DecidableEq, Repr

/-- How a tool is handed the code it looks at. -/
inductive InvocationMode where
  /-- Once, over the whole module. -/
  | wholeModule
  /-- Once for each directory, with the files of that directory. -/
  | perFileGroup
  /-- Without any command. -/
  | inProcess
  deriving DecidableEq, Repr

/-- The entry of a tool in the catalog. -/
structure ToolEntry where
  /-- The name of the tool. -/
  name : String
  /-- The shorter name. -/
  shorthand : String
  /-- What kind of check it is. -/
  kind : ToolKind
  /-- The program and its leading arguments. -/
  command : List String
  /-- What a run over the whole module checks. -/
  target : String
  /-- Whether the tool needs a list of files outside of a module. -/
  needsModule : Bool := false
  /-- Whether the findings are the same for every platform. -/
  platformIndependent : Bool := false
  /-- What is announced before the tool runs. -/
  progress : String
  deriving Repr

namespace Tool

/-- **All tools**, in the order in which they run by default. -/
def all : List Tool :=
  [.format, .strictFormat, .complexity, .deadAssignment, .style, .vet, .lineLength, .spelling,
    .staticAnalysis]

/-- **The catalog.** -/
def entry : Tool → ToolEntry
  | .format =>
    { name := "gofmt", shorthand := "fmt", kind := .formatter
      command := ["gofmt", "-l", "-s", "-w"], target := "."
      progress := "Formatting code (gofmt)..." }
  | .strictFormat =>
    { name := "gofumpt", shorthand := "fumpt", kind := .formatter
      command := ["gofumpt", "-e", "-l", "-w"], target := "."
      progress := "Optimizing code (gofumpt)..." }
  | .complexity =>
    { name := "gocyclo", shorthand := "cyclo", kind := .complexityChecker
      command := ["gocyclo"], target := "."
      progress := "Checking code complexity (gocyclo)..." }
  | .deadAssignment =>
    { name := "ineffassign", shorthand := "ineff", kind := .deadAssignmentChecker
      command := ["ineffassign"], target := "./...", needsModule := true
      progress := "Looking for inefficient assignments (ineffassign)..." }
  | .style =>
    { name := "golint", shorthand := "lint", kind := .linter
      command := ["golint"], target := "./..."
      progress := "Linting code (golint)..." }
  | .vet =>
    { name := "govet", shorthand := "vet", kind := .vetChecker
      command := ["go", "vet"], target := "./...", needsModule := true
      progress := "Vetting code (go vet)..." }
  | .lineLength =>
    { name := "line-length", shorthand := "ll", kind := .lineLengthChecker
      command := [], target := "", platformIndependent := true
      progress := "Checking for improper line-length..." }
  | .spelling =>
    { name := "spellcheck", shorthand := "spell", kind := .spellChecker
      command := ["misspell"], target := ".", platformIndependent := true
      progress := "Checking spelling..." }
  | .staticAnalysis =>
    { name := "staticcheck", shorthand := "static", kind := .staticAnalyzer
      command := ["staticcheck"], target := "./...", needsModule := true
      progress := "Running static analysis (staticcheck)..." }

/-- The name of a tool. -/
def name (t : Tool) : String := t.entry.name

/-- The tool of a name or a shorthand. -/
def ofWord? (word : String) : Option Tool :=
  all.find? fun t => t.entry.name == word || t.entry.shorthand == word

/-- Whether the findings of a tool are the same for every platform. -/
def isPlatformIndependent (t : Tool) : Bool := t.entry.platformIndependent

end Tool

/-- The mode of a tool that does or does not need a module, at a module root or not. -/
def InvocationMode.select (needsModule moduleRoot : Bool) : InvocationMode :=
  if needsModule && !moduleRoot then .perFileGroup else .wholeModule

/-- **The mode of a tool.** -/
def Tool.mode (t : Tool) (moduleRoot : Bool) : InvocationMode :=
  match t with
  | .lineLength => .inProcess
  | .spelling => .perFileGroup
  | t => .select t.entry.needsModule moduleRoot

end LintSuite
