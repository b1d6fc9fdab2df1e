import LintSuite.CommandLine.Refusal

/-!
# Help texts

Asked for by an option, help is brief: each option takes one line.  Asked for by an action word, it
is spread out: each option has its explanation below it, and its default below that.  What precedes
the options and what follows them is the same in both.
-/

namespace LintSuite.CommandLine

open Text

namespace Opt

/-- What the option does. -/
def explanation : Opt → String
  | .confidence => "Only complain about golint problems with at least this confidence"
  | .cgo => "Enable cgo when checking other platforms"
  | .debug => "Print executed sub-processes"
  | .ignore => "Ignore words when checking spelling (comma-separated, repeatable)"
  | .length => "Max length of source code lines"
  | .noColor => "Disable colorized output"
  | .complexity => "Only complain about functions over this complexity"
  | .prune => "Prune directories/files when analyzing source files"
  | .quiet => "Hide information log messages"
  | .skip => "Skip directories/files when checking spelling"
  | .timeout => "Seconds before a tool is killed (0 waits forever)"
  | .verbose => "Show stacktrace, if error"
  | .version => "Show version"
  | .help => "Print help"

/-- The default as help shows it, if there is one. -/
def defaultText? : Opt → Option String
  | .confidence => some "[default: 0.8]"
  | .length => some "[default: 70]"
  | .complexity => some "[default: 15]"
  | .timeout => some "[default: 300]"
  | _ => none

/-- The option as help lists it, with its letter. -/
def entry (o : Opt) : Styled :=
  (match o.letter? with
  | some c =>
    Styled.plain "  " ++ Styled.inStyle .literal (String.ofList ['-', c]) ++ Styled.plain ", "
  | none => Styled.plain "      ") ++ o.styled

end Opt

/-- A heading with a colon. -/
def headingLine (text : String) : Styled := Styled.inStyle .heading text

/-- The width of the widest entry. -/
def entryWidth : Nat := (Opt.all.map fun o => o.entry.width).foldl max 0

/-- An option in one line. -/
def briefEntry (o : Opt) : Styled :=
  o.entry ++ Styled.plain ("".pushn ' ' (entryWidth + 2 - o.entry.width) ++ o.explanation ++
    (match o.defaultText? with
    | some text => " " ++ text
    | none => ""))

/-- How far an explanation is indented. -/
def indented (text : String) : Styled := Styled.plain ("          " ++ text)

/-- An option in several lines, with an empty one behind them. -/
def spreadEntry (o : Opt) : List Styled :=
  [o.entry, indented o.explanation] ++
    (match o.defaultText? with
    | some text => [indented "", indented text]
    | none => []) ++ [[]]

/-- What the program is and how it is called. -/
def preamble : List Styled := [
  Styled.plain
    "Runs the usual Go source analysis tools across platforms and reports their complaints",
  [],
  usage (.mentioning []),
  [],
  headingLine "Arguments:"]

/-- The arguments and options, a line for each. -/
def briefOptions : List Styled :=
  [Styled.plain "  [ACTION]...  Actions to perform (see below)", [], headingLine "Options:"] ++
    Opt.all.map briefEntry ++ [[]]

/-- The arguments and options, spread out. -/
def spreadOptions : List Styled :=
  [Styled.plain "  [ACTION]...", indented "Actions to perform (see below)", [],
    headingLine "Options:"] ++ Opt.all.flatMap spreadEntry

/-- The action words and the exit codes. -/
def epilogue : List String := [
  "ACTIONS - COMMANDS:",
  "  h, help                         Display this help message.",
  "  i, install, u, update, upgrade  Install or reinstall underlying tools.",
  "  v, version                      Show version.",
  "",
  "ACTIONS - ENV:",
  "  allos, ao, dlw                  Check all supported GOOS.",
  "  darwin, linux, windows          Check the specified GOOS (default: host).",
  "  d, l, w                         Shorthand for associated GOOS.",
  "",
  "ACTIONS - TOOLS:",
  "  alltools, all, at               Run all tools (default).",
  "  gocyclo, gofmt, gofumpt, golint, govet, ineffassign, line-length,",
  "  spellcheck, staticcheck         Run the specified tool.",
  "  cyclo, fmt, fumpt, lint, vet, ineff, ll, spell, static",
  "                                  Shorthand for associated tools.",
  "  no<tool>                        Skip a tool, e.g. nolint.",
  "",
  "EXIT STATUS:",
  "  1: Invalid option",
  "  2: Missing option",
  "  3: Invalid argument",
  "  4: Missing argument",
  "  5: Extra argument",
  "  6: Exception"]

/-- Lines as a text, each with its end. -/
def asText (lines : List String) : String :=
  String.join (lines.map (· ++ "\n"))

/-- A help text around a list of options. -/
def helpText (styled : Bool) (options : List Styled) : String :=
  asText ((preamble ++ options).map (Styled.printed styled) ++ epilogue)

/-- **The brief help**, with styles or without. -/
def briefHelp (styled : Bool) : String := helpText styled briefOptions

/-- **The spread-out help**, with styles or without. -/
def spreadHelp (styled : Bool) : String := helpText styled spreadOptions

end LintSuite.CommandLine
