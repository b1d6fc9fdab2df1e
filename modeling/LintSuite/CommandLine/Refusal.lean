import LintSuite.CommandLine.Options
import LintSuite.Text.Similarity
import LintSuite.Text.Styled

/-!
# Refusals of a command line

A command line that cannot be read to its end is refused: the first line says why, a hint may
follow, then how the program is called with what has been mentioned so far, and last where to find
help.  Values that are wrong are refused without the call, as it would not help.

For a long option that does not exist the hint is the most similar one that does, which then counts
as mentioned; if none is similar, or for a letter, it is how to pass the word as an action word.
-/

namespace LintSuite.CommandLine

open Text

/-- The name of the program. -/
def programName : String := "gocomplain"

/-- An option in a call: what is to be typed, and the name of its value. -/
def Opt.styled (o : Opt) : Styled :=
  Styled.inStyle .literal ("--" ++ o.long) ++
    (match o.valueName? with
    | some name => Styled.plain (" <" ++ name ++ ">")
    | none => [])

/-- The options among some mentions. -/
def optionsOf (ms : List Mention) : List Opt :=
  ms.filterMap fun m => match m with
    | .option o => some o
    | .words => none

/-- What a refusal shows of how the program is called. -/
inductive Invocation where
  /-- With what has been mentioned, or in general if that is nothing. -/
  | mentioning (mentioned : List Mention)
  /-- With any of the options and action words, of which one at least is given. -/
  | anyOf
  deriving DecidableEq, Repr

/-- All options but the help, and the action words, as alternatives. -/
def alternatives : String :=
  "<" ++ String.intercalate "|" ((Opt.all.filter (· != .help)).map Opt.shown ++ ["ACTION"]) ++ ">"

/-- **How the program is called**. -/
def usage (call : Invocation) : Styled :=
  Styled.inStyle .heading "Usage:" ++ Styled.plain " " ++ Styled.inStyle .literal programName ++
    (match call with
    | .mentioning [] => Styled.plain " [OPTIONS] [ACTION]..."
    | .mentioning mentioned =>
      (optionsOf mentioned).flatMap (fun o => Styled.plain " " ++ o.styled) ++
        Styled.plain (if mentioned.contains .words then " <ACTION>..." else " [ACTION]...")
    | .anyOf => Styled.plain (" " ++ alternatives))

/-- The option that a long name may have been meant for. -/
def meant? (name : String) : Option Opt :=
  (Similarity.closest? name (Opt.all.map Opt.long)).bind Opt.ofLong?

namespace Stop

/-- Why the command line is refused. -/
def reason : Stop → Styled
  | .unknownLong name _ =>
    Styled.plain "unexpected argument " ++ Styled.quoted .invalid ("--" ++ name) ++
      Styled.plain " found"
  | .unknownLetter c =>
    Styled.plain "unexpected argument " ++ Styled.quoted .invalid (String.ofList ['-', c]) ++
      Styled.plain " found"
  | .badValue o value reason =>
    Styled.plain "invalid value " ++ Styled.quoted .invalid value ++ Styled.plain " for " ++
      Styled.quoted .literal o.shown ++ Styled.plain (": " ++ reason)
  | .missingValue o =>
    Styled.plain "a value is required for " ++ Styled.quoted .invalid o.shown ++
      Styled.plain " but none was supplied"
  | .repeated o =>
    Styled.plain "the argument " ++ Styled.quoted .invalid o.shown ++
      Styled.plain " cannot be used multiple times"
  | .unwantedValue o value _ =>
    Styled.plain "unexpected value " ++ Styled.quoted .invalid value ++ Styled.plain " for " ++
      Styled.quoted .literal o.shown ++ Styled.plain " found; no more were expected"
  | .help => []

/-- A line with a hint. -/
def tip (text : Styled) : List Styled :=
  [[], Styled.plain "  " ++ Styled.inStyle .valid "tip:" ++ Styled.plain " " ++ text]

/-- The hint to pass an argument as an action word. -/
def wordTip (argument : String) : List Styled :=
  tip (Styled.plain "to pass " ++ Styled.quoted .invalid argument ++
    Styled.plain " as a value, use " ++ Styled.quoted .valid ("-- " ++ argument))

/-- The hint of a refusal, if it has one. -/
def hint : Stop → List Styled
  | .unknownLong name _ =>
    match meant? name with
    | some o =>
      tip (Styled.plain "a similar argument exists: " ++ Styled.quoted .valid ("--" ++ o.long))
    | none => wordTip ("--" ++ name)
  | .unknownLetter c => wordTip (String.ofList ['-', c])
  | _ => []

/-- The call that a refusal shows, if it shows one.  A switch with a value stands alone, or, if
anything was given before it, for all that could be. -/
def call? : Stop → Option Invocation
  | .unknownLong name mentioned =>
    match meant? name with
    | some o => some (.mentioning (mentioning mentioned (.option o)))
    | none => some (.mentioning mentioned)
  | .unknownLetter _ => some (.mentioning [])
  | .repeated _ => some (.mentioning [])
  | .unwantedValue o _ further => some (if further then .anyOf else .mentioning [.option o])
  | _ => none

/-- **The lines of a refusal.** -/
def lines (s : Stop) : List Styled :=
  [Styled.inStyle .failure "error:" ++ Styled.plain " " ++ s.reason] ++ s.hint ++
    (match s.call? with
    | some call => [[], usage call]
    | none => []) ++
    [[], Styled.plain "For more information, try " ++ Styled.quoted .literal "--help" ++
      Styled.plain "."]

/-- Why the command line is refused, as a text without styles. -/
def message (s : Stop) : String := s.reason.text

end Stop

end LintSuite.CommandLine
