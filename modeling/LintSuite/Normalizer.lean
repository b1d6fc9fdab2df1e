import LintSuite.Path
import LintSuite.Text.Lines

/-!
# Cleaning tool output

What a tool prints becomes messages, one per line.  Output that only says that there was nothing to
do is dropped as a whole; from every other line the labels that carry no news are taken off the
front: the name of the vet tool, a leading dot, and the working directory, in this order and each at
most once.  The order and the number of lines never change.
-/

namespace LintSuite

open Text

/-- A text to look for, anywhere or only at one end. -/
structure Pattern where
  /-- Whether it must stand at the start. -/
  atStart : Bool := false
  /-- The text. -/
  text : List Char
  /-- Whether it must stand at the end. -/
  atEnd : Bool := false
  deriving DecidableEq, Repr

namespace Pattern

/-- A pattern from its spelling: a leading `^` and a trailing `$` fix the ends. -/
def ofSpelling (spelling : String) : Pattern :=
  let (atStart, rest) := match spelling.toList with
    | '^' :: rest => (true, rest)
    | rest => (false, rest)
  if rest.getLast? == some '$' then ⟨atStart, rest.dropLast, true⟩ else ⟨atStart, rest, false⟩

/-- Whether a text begins with the pattern's, and ends there if it must. -/
def matchesHere (p : Pattern) (cs : List Char) : Bool :=
  if p.atEnd then p.text == cs else p.text.isPrefixOf cs

/-- Whether a text matches at its start or further on. -/
def matchesFrom (p : Pattern) : List Char → Bool
  | [] => p.matchesHere []
  | c :: rest => p.matchesHere (c :: rest) || matchesFrom p rest

/-- **Matching.** -/
def matchesIn (p : Pattern) (text : List Char) : Bool :=
  if p.atStart then p.matchesHere text else p.matchesFrom text

end Pattern

/-- Output that means a tool had nothing to do. -/
def idleOutput : List String :=
  ["does not contain main module", "matched no packages", "no Go files in",
    "error obtaining VCS status"]

/-- The label of the vet tool. -/
def vetLabel : String := "vet: "

/-- **A normalizer**: what it ignores, and the labels it takes off. -/
structure Normalizer where
  /-- Patterns of output that is dropped as a whole. -/
  ignorable : List Pattern
  /-- Labels taken off each line, in order. -/
  labels : List (List Char)
  deriving DecidableEq, Repr

namespace Normalizer

/-- The normalizer for output that was produced in a working directory, if that is known. -/
def ofDir (cwd : Option Path) : Normalizer where
  ignorable := idleOutput.map Pattern.ofSpelling
  labels := [vetLabel.toList, ['.', '/']] ++ (cwd.map fun p => p.text.toList ++ ['/']).toList

/-- The normalizer with more output to ignore. -/
def ignoring (n : Normalizer) (more : List Pattern) : Normalizer :=
  { n with ignorable := n.ignorable ++ more }

/-- Whether an output is dropped as a whole. -/
def ignores (n : Normalizer) (raw : String) : Bool :=
  n.ignorable.any (·.matchesIn raw.toList)

/-- A line without a label, if it begins with it. -/
def takeOff (line label : List Char) : List Char :=
  if label.isPrefixOf line then line.drop label.length else line

/-- A line without its labels. -/
def strip (n : Normalizer) (line : List Char) : List Char :=
  n.labels.foldl takeOff line

/-- The lines of an output that is not dropped, without their labels. -/
def clean (n : Normalizer) (raw : String) : List String :=
  (Lines.ofText raw.toList).map fun line => String.ofList (n.strip line)

/-- **Normalizing** an output. -/
def normalize (n : Normalizer) (raw : String) : List String :=
  if n.ignores raw then [] else n.clean raw

/-- Normalizing an output of which one line, counted from zero, is not wanted.  The lines are counted
as they stand in the output. -/
def normalizeWithout (n : Normalizer) (raw : String) (line : Option Nat) : List String :=
  if n.ignores raw then []
  else
    ((Lines.ofText raw.toList).zipIdx.filter fun e => line != some e.2).map fun e =>
      String.ofList (n.strip e.1)

end Normalizer

end LintSuite
