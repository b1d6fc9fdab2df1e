import LintSuite.Decimal.Layout
import LintSuite.Duration

/-!
# Settings

Settings come from two places, a settings file and the flags of the command line.  The flags are
laid over the file: a flag that is left at its default takes the value of the file, lists from both
are put together, and quiet is on if either asks for it.

Only the merged settings are checked (`Flags.check`), so a value out of range is refused wherever it
came from.
-/

namespace LintSuite

/-- The confidence from which style findings are reported, by default. -/
def defaultConfidence : Float := 0.8

/-- The greatest length of a line, by default. -/
def defaultLength : UInt64 := 70

/-- The greatest complexity of a function, by default. -/
def defaultComplexity : UInt32 := 15

/-- The least limit that may be set for the length of a line. -/
def leastLength : UInt64 := 70

/-- The greatest limit that may be set for the length of a line. -/
def greatestLength : UInt64 := 100

/-- The seconds after which a tool is stopped, by default. -/
def defaultTimeout : UInt64 := 300

/-- **The settings of a settings file.**  What the file does not say is at its default. -/
structure Settings where
  /-- The confidence from which style findings are reported. -/
  confidence : Float := defaultConfidence
  /-- Words that the spelling checks ignore. -/
  ignore : List String := []
  /-- The greatest length of a line. -/
  length : UInt64 := defaultLength
  /-- The greatest complexity of a function. -/
  complexity : UInt32 := defaultComplexity
  /-- Files and directories that are left out. -/
  prune : List String := []
  /-- Whether progress is hidden. -/
  quiet : Bool := false
  /-- Files and directories that the whole-tree spelling check leaves out. -/
  skip : List String := []
  deriving Repr

/-- **The flags of the command line.** -/
structure Flags extends Settings where
  /-- Whether C code is compiled too. -/
  cgo : Bool := false
  /-- Whether the commands that are run are logged. -/
  debug : Bool := false
  /-- The seconds after which a tool is stopped; zero waits forever. -/
  timeout : UInt64 := defaultTimeout
  deriving Repr

/-- Why settings are refused. -/
inductive SettingsFault where
  /-- The limit for lines is below the least. -/
  | tooShort
  /-- The limit for lines is above the greatest. -/
  | tooLong
  /-- The confidence is no number from zero to one. -/
  | confidence (value : Float)
  deriving Repr

/-- The text of a refusal. -/
def SettingsFault.message : SettingsFault → String
  | .tooShort => "Less than 70? Who hurt you?"
  | .tooLong => "Greater than 100? You monster!"
  | .confidence x =>
    "confidence must be between 0 and 1, got " ++ Decimal.render Decimal.plain x

namespace Flags

/-- **Merging**: the flags laid over the settings of the file. -/
def merge (flags : Flags) (file : Settings) : Flags :=
  { flags with
    confidence :=
      if flags.confidence == defaultConfidence then file.confidence else flags.confidence
    length := if flags.length == defaultLength then file.length else flags.length
    complexity :=
      if flags.complexity == defaultComplexity then file.complexity else flags.complexity
    ignore := flags.ignore ++ file.ignore
    prune := flags.prune ++ file.prune
    skip := flags.skip ++ file.skip
    quiet := flags.quiet || file.quiet }

/-- **Checking** merged settings: the first fault, if there is one. -/
def check (flags : Flags) : Except SettingsFault Unit :=
  if flags.length < leastLength then .error .tooShort
  else if greatestLength < flags.length then .error .tooLong
  else if 0.0 ≤ flags.confidence && flags.confidence ≤ 1.0 then .ok ()
  else .error (.confidence flags.confidence)

/-- The time after which a tool is stopped, if there is one. -/
def timeLimit (flags : Flags) : Option Duration :=
  if flags.timeout = 0 then none else some (.ofSeconds flags.timeout.toNat)

end Flags

/-- The pieces of a text between commas. -/
def betweenCommas : List Char → List (List Char)
  | [] => [[]]
  | c :: rest =>
    if c = ',' then [] :: betweenCommas rest
    else match betweenCommas rest with
      | [] => [[c]]
      | piece :: others => (c :: piece) :: others

/-- **Lists on the command line**: the values cut at commas, without empty entries. -/
def splitList (values : List String) : List String :=
  ((values.flatMap fun v => betweenCommas v.toList).filter (· != [])).map String.ofList

end LintSuite
