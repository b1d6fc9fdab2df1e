import LintSuite.RunConfig

/-!
# Action words

The words of the command line that are no options say what to do: a command of the program itself,
platforms to run for, tools to run, or, behind `no`, a tool to leave out.  A word is looked up as a
tool before its first letters are taken for a `no`.
-/

namespace LintSuite.CommandLine

/-- **The meaning of an action word.** -/
inductive ActionWord where
  /-- Showing the help text. -/
  | help
  /-- Installing the tools. -/
  | install
  /-- Showing the version. -/
  | version
  /-- Running for platforms. -/
  | platforms (ps : List Platform)
  /-- Running tools. -/
  | tools (ts : List Tool)
  /-- Leaving out a tool. -/
  | remove (t : Tool)
  deriving DecidableEq, Repr

/-- The words with a meaning of their own. -/
def fixedWords : List (List String × ActionWord) :=
  [(["h", "help"], .help),
    (["i", "install", "u", "update", "upgrade"], .install),
    (["v", "version"], .version),
    (["d", "darwin"], .platforms [.darwin]),
    (["l", "linux"], .platforms [.linux]),
    (["w", "windows"], .platforms [.windows]),
    (["dlw", "allos", "ao"], .platforms Platform.all),
    (["all", "alltools", "at"], .tools Tool.all)]

/-- The tool that a word behind `no` leaves out. -/
def removed? (word : String) : Option Tool :=
  match word.toList with
  | 'n' :: 'o' :: rest => Tool.ofWord? (String.ofList rest)
  | _ => none

namespace ActionWord

/-- **The meaning of a word.** -/
def ofWord? (word : String) : Option ActionWord :=
  match fixedWords.find? (·.1.contains word) with
  | some (_, meaning) => some meaning
  | none =>
    match Tool.ofWord? word with
    | some t => some (.tools [t])
    | none => (removed? word).map .remove

/-- The meanings of some words, or the first word that has none. -/
def ofWords : List String → Except String (List ActionWord)
  | [] => .ok []
  | word :: rest =>
    match ofWord? word with
    | none => .error word
    | some meaning =>
      match ofWords rest with
      | .ok meanings => .ok (meaning :: meanings)
      | .error unknown => .error unknown

/-- The platforms that a word names. -/
def platformsNamed : ActionWord → List Platform
  | .platforms ps => ps
  | _ => []

/-- The tools that a word names. -/
def toolsNamed : ActionWord → List Tool
  | .tools ts => ts
  | _ => []

/-- The tools that a word leaves out. -/
def toolsRemoved : ActionWord → List Tool
  | .remove t => [t]
  | _ => []

/-- **What some words select.** -/
def selection (words : List ActionWord) : Selection where
  platforms := words.flatMap platformsNamed
  tools := words.flatMap toolsNamed
  removed := words.flatMap toolsRemoved

end ActionWord

end LintSuite.CommandLine
