import LintSuite.CommandLine.WholeNumber
import LintSuite.Decimal.Reading
import LintSuite.Settings.Basic

/-!
# The options of the command line

An option has a long name and perhaps a letter.  It is a switch, or it takes a value, which stands
behind an equals sign, directly behind the letter, or in the next argument; but an argument that
looks like an option is never the value of another.  Switches and single values may be given once;
lists grow with each use.  Behind two dashes, and everywhere else, what is no option is an action
word.

`parse` reads the arguments from left to right.  A value is checked when the next option or action
word begins (`settle`), so an option that does not exist is noticed before a bad value that stands
directly before it.  Action words in a row are noted together.  Where reading comes to a halt it is known what has been mentioned so far, since
a refusal repeats it (`Progress.mentioned`).
-/

namespace LintSuite.CommandLine

/-- **The options.** -/
inductive Opt where
  /-- The least confidence of style findings. -/
  | confidence
  /-- Compiling C code too. -/
  | cgo
  /-- Logging the commands that are run. -/
  | debug
  /-- Words to ignore. -/
  | ignore
  /-- The greatest length of a line. -/
  | length
  /-- No colors. -/
  | noColor
  /-- The greatest complexity of a function. -/
  | complexity
  /-- Files and directories to leave out. -/
  | prune
  /-- No progress. -/
  | quiet
  /-- Files and directories without spelling check. -/
  | skip
  /-- The time for a tool. -/
  | timeout
  /-- More about errors. -/
  | verbose
  /-- The version. -/
  | version
  /-- The help text. -/
  | help
  deriving DecidableEq, Repr

namespace Opt

/-- All options. -/
def all : List Opt :=
  [.confidence, .cgo, .debug, .ignore, .length, .noColor, .complexity, .prune, .quiet, .skip,
    .timeout, .verbose, .version, .help]

/-- The long name. -/
def long : Opt → String
  | .confidence => "confidence"
  | .cgo => "cgo"
  | .debug => "debug"
  | .ignore => "ignore"
  | .length => "length"
  | .noColor => "no-color"
  | .complexity => "over"
  | .prune => "prune"
  | .quiet => "quiet"
  | .skip => "skip"
  | .timeout => "timeout"
  | .verbose => "verbose"
  | .version => "version"
  | .help => "help"

/-- The letter. -/
def letter? : Opt → Option Char
  | .confidence => some 'c'
  | .cgo => none
  | .debug => some 'd'
  | .ignore => some 'i'
  | .length => some 'l'
  | .noColor => none
  | .complexity => some 'o'
  | .prune => some 'p'
  | .quiet => some 'q'
  | .skip => some 's'
  | .timeout => some 't'
  | .verbose => some 'v'
  | .version => some 'V'
  | .help => some 'h'

/-- What the value is called, if the option takes one. -/
def valueName? : Opt → Option String
  | .confidence => some "CONFIDENCE"
  | .ignore => some "WORDS"
  | .length => some "LENGTH"
  | .complexity => some "OVER"
  | .prune => some "PATHS"
  | .skip => some "PATHS"
  | .timeout => some "SECS"
  | _ => none

/-- Whether the option takes a value. -/
def takesValue (o : Opt) : Bool := o.valueName?.isSome

/-- The option of a long name. -/
def ofLong? (name : String) : Option Opt := all.find? (·.long == name)

/-- The option of a letter. -/
def ofLetter? (c : Char) : Option Opt := all.find? (·.letter? == some c)

/-- The option as messages show it. -/
def shown (o : Opt) : String :=
  match o.valueName? with
  | some name => "--" ++ o.long ++ " <" ++ name ++ ">"
  | none => "--" ++ o.long

/-- Whether each use of the option adds to a list. -/
def isList : Opt → Bool
  | .ignore | .prune | .skip => true
  | _ => false

end Opt

/-- A part of a command line that has been noted. -/
inductive Mention where
  /-- An option. -/
  | option (o : Opt)
  /-- The action words. -/
  | words
  deriving DecidableEq, Repr

/-- Some mentions and one more, if it is new. -/
def mentioning (ms : List Mention) (m : Mention) : List Mention :=
  if ms.contains m then ms else ms ++ [m]

/-- Why a command line is not read to its end. -/
inductive Stop where
  /-- A long option does not exist; what has been mentioned before it. -/
  | unknownLong (name : String) (mentioned : List Mention)
  /-- The option of a letter does not exist. -/
  | unknownLetter (letter : Char)
  /-- A value is no value of its option. -/
  | badValue (o : Opt) (value reason : String)
  /-- A value is missing. -/
  | missingValue (o : Opt)
  /-- An option was given twice. -/
  | repeated (o : Opt)
  /-- A switch was given a value; whether anything had been given before it. -/
  | unwantedValue (o : Opt) (value : String) (further : Bool)
  /-- Help was asked for. -/
  | help
  deriving DecidableEq, Repr

/-- **What a command line says.** -/
structure Options where
  /-- The least confidence of style findings, if given. -/
  confidence : Option Float := none
  /-- Words to ignore, as given. -/
  ignore : List String := []
  /-- The greatest length of a line, if given. -/
  length : Option UInt64 := none
  /-- The greatest complexity of a function, if given. -/
  complexity : Option UInt32 := none
  /-- Files and directories to leave out, as given. -/
  prune : List String := []
  /-- Files and directories without spelling check, as given. -/
  skip : List String := []
  /-- The seconds for a tool, if given. -/
  timeout : Option UInt64 := none
  /-- The switches that were given. -/
  switches : List Opt := []
  /-- The action words. -/
  actions : List String := []
  /-- What was given, in the order in which it was first given. -/
  mentioned : List Mention := []
  deriving Repr

namespace Options

/-- What is given, and a mention of it. -/
def mention (given : Options) (m : Mention) : Options :=
  { given with mentioned := mentioning given.mentioned m }

/-- One more action word. -/
def addWord (given : Options) (word : String) : Options :=
  { given with actions := given.actions ++ [word] }.mention .words

/-- Whether a switch was given. -/
def has (given : Options) (o : Opt) : Bool := given.switches.contains o

/-- The flags that a command line gives. -/
def flags (given : Options) : Flags where
  confidence := given.confidence.getD defaultConfidence
  ignore := splitList given.ignore
  length := given.length.getD defaultLength
  complexity := given.complexity.getD defaultComplexity
  prune := splitList given.prune
  quiet := given.has .quiet
  skip := splitList given.skip
  cgo := given.has .cgo
  debug := given.has .debug
  timeout := given.timeout.getD defaultTimeout

end Options

/-- A value that can be given once. -/
def once {α : Type} (o : Opt) (old : Option α) (value : String) (read : Except String α) :
    Except Stop α :=
  if old.isSome then .error (.repeated o)
  else match read with
    | .ok a => .ok a
    | .error reason => .error (.badValue o value reason)

/-- Reading a number of sixty-four bits. -/
def readWord (value : String) : Except String UInt64 :=
  match WholeNumber.readNatural 0xFFFFFFFFFFFFFFFF value with
  | .ok n => .ok (UInt64.ofNat n)
  | .error e => .error e.message

/-- Reading a number of thirty-two bits: any number with a sign is read, and one outside of the
range is named by its value, however it was spelled. -/
def readHalfWord (value : String) : Except String UInt32 :=
  match WholeNumber.readSigned value with
  | .ok n =>
    if 0 ≤ n && n < UInt32.size then .ok (UInt32.ofNat n.toNat)
    else .error (toString n ++ " is not in 0..=4294967295")
  | .error e => .error e.message

/-- Reading a number with a fraction. -/
def readFraction (value : String) : Except String Float :=
  match Decimal.read value with
  | .ok x => .ok x
  | .error e => .error e.message

/-- Giving an option its value. -/
def setValue (given : Options) (o : Opt) (value : String) : Except Stop Options := do
  let noted := given.mention (.option o)
  match o with
  | .confidence =>
    return { noted with confidence := some (← once o given.confidence value (readFraction value)) }
  | .length => return { noted with length := some (← once o given.length value (readWord value)) }
  | .complexity =>
    return { noted with
      complexity := some (← once o given.complexity value (readHalfWord value)) }
  | .timeout =>
    return { noted with timeout := some (← once o given.timeout value (readWord value)) }
  | .ignore => return { noted with ignore := given.ignore ++ [value] }
  | .prune => return { noted with prune := given.prune ++ [value] }
  | .skip => return { noted with skip := given.skip ++ [value] }
  | _ => .error (.unwantedValue o value !given.mentioned.isEmpty)

/-- Turning a switch on. -/
def setSwitch (given : Options) (o : Opt) : Except Stop Options :=
  if o = .help then .error .help
  else if given.has o then .error (.repeated o)
  else .ok { given.mention (.option o) with switches := given.switches ++ [o] }

/-- What has been read and is not settled yet. -/
inductive Pending where
  /-- An option whose value is still to come. -/
  | awaiting (o : Opt)
  /-- An option and its value, which is not checked. -/
  | value (o : Opt) (text : String)
  /-- Action words in a row. -/
  | words (texts : List String)
  deriving DecidableEq, Repr

/-- **Settling** what is pending before something else begins. -/
def settle (given : Options) : Option Pending → Except Stop Options
  | none => .ok given
  | some (.awaiting o) => .error (.missingValue o)
  | some (.value o text) => setValue given o text
  | some (.words texts) => .ok (texts.foldl Options.addWord given)

/-- What is read so far. -/
structure Progress where
  /-- What is settled. -/
  given : Options
  /-- What is pending. -/
  pending : Option Pending := none
  deriving Repr

/-- **What has been mentioned** where reading comes to a halt.  What is pending counts even if it is
no value of its option; a second use of a single option takes its mention back. -/
def Progress.mentioned (p : Progress) : List Mention :=
  let before := p.given.mentioned
  match p.pending with
  | none => before
  | some (.awaiting _) => before
  | some (.words _) => mentioning before .words
  | some (.value o _) =>
    if before.contains (.option o) && !o.isList then before.erase (.option o)
    else mentioning before (.option o)

/-- Beginning an option that takes a value. -/
def beginValue (p : Progress) (o : Opt) (attached : Option String) : Except Stop Progress := do
  let given ← settle p.given p.pending
  match attached with
  | some value => return ⟨← setValue given o value, none⟩
  | none => return ⟨given, some (.awaiting o)⟩

/-- Beginning a switch. -/
def beginSwitch (p : Progress) (o : Opt) : Except Stop Progress := do
  let given ← settle p.given p.pending
  return ⟨← setSwitch given o, none⟩

/-- The name of a long option, and the value behind its equals sign. -/
def splitLong (body : List Char) : String × Option String :=
  match body.dropWhile (· != '=') with
  | _ :: value => (String.ofList (body.takeWhile (· != '=')), some (String.ofList value))
  | [] => (String.ofList body, none)

/-- Reading a long option behind its dashes. -/
def readLong (p : Progress) (body : List Char) : Except Stop Progress :=
  let (name, attached) := splitLong body
  match Opt.ofLong? name with
  | none => .error (.unknownLong name p.mentioned)
  | some o =>
    if o.takesValue then beginValue p o attached
    else match attached with
      | some value => .error (.unwantedValue o value !p.given.mentioned.isEmpty)
      | none => beginSwitch p o

/-- The value attached to a letter: an equals sign before it does not count. -/
def attachedTo (rest : List Char) : Option String :=
  match rest with
  | [] => none
  | '=' :: value => some (String.ofList value)
  | value => some (String.ofList value)

/-- Reading letters behind a dash: switches, and at the end perhaps an option with its value. -/
def readLetters (p : Progress) : List Char → Except Stop Progress
  | [] => .ok p
  | c :: rest =>
    match Opt.ofLetter? c with
    | none => .error (.unknownLetter c)
    | some o =>
      if o.takesValue then beginValue p o (attachedTo rest)
      else do readLetters (← beginSwitch p o) rest

/-- Reading an argument that is no option: a value that is awaited, or an action word. -/
def readPlain (p : Progress) (argument : String) : Except Stop Progress := do
  match p.pending with
  | some (.awaiting o) => return { p with pending := some (.value o argument) }
  | some (.words texts) => return { p with pending := some (.words (texts ++ [argument])) }
  | _ => return ⟨← settle p.given p.pending, some (.words [argument])⟩

/-- Reading one argument. -/
def readArgument (p : Progress) (argument : String) : Except Stop Progress :=
  match argument.toList with
  | '-' :: '-' :: body => readLong p body
  | '-' :: c :: rest => readLetters p (c :: rest)
  | _ => readPlain p argument

/-- Reading arguments from left to right. -/
def readFrom (p : Progress) : List String → Except Stop Options
  | [] => settle p.given p.pending
  | argument :: rest =>
    if argument = "--" then do
      return rest.foldl Options.addWord (← settle p.given p.pending)
    else do readFrom (← readArgument p argument) rest

/-- **Reading a command line**, without the name of the program. -/
def parse (arguments : List String) : Except Stop Options :=
  readFrom { given := {} } arguments

end LintSuite.CommandLine
