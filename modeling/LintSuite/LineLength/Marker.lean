import LintSuite.Text.Blank

/-!
# The mark of generated code

A line that announces generated code opens with `// Code generated`, closes with `DO NOT EDIT.`, and
may say anything between the two.  Every gap in the two fixed parts is one blank, of whatever kind,
and each part has gaps of its own: the blank that ends the opening does not serve as the one that
begins the closing.
-/

namespace LintSuite.LineLength

open Text

/-- One place in a fixed part of a line. -/
inductive Slot where
  /-- This character. -/
  | exactly (c : Char)
  /-- Any blank. -/
  | blank
  deriving DecidableEq, Repr

/-- Whether a character fits in a place. -/
def Slot.fits : Slot → Char → Bool
  | .exactly a, c => a == c
  | .blank, c => isBlank c

/-- The places of a word. -/
def word (s : String) : List Slot :=
  s.toList.map .exactly

/-- The opening of the mark. -/
def opening : List Slot :=
  word "//" ++ .blank :: word "Code" ++ .blank :: word "generated" ++ [.blank]

/-- The closing of the mark. -/
def closing : List Slot :=
  .blank :: word "DO" ++ .blank :: word "NOT" ++ .blank :: word "EDIT."

/-- Whether a text fits a fixed part, place by place. -/
def fits : List Slot → List Char → Bool
  | [], [] => true
  | s :: slots, c :: cs => s.fits c && fits slots cs
  | _, _ => false

/-- **The mark of generated code.**  The line is long enough for both parts, and fits them at its
two ends. -/
def isMarker (line : List Char) : Bool :=
  opening.length + closing.length ≤ line.length &&
    fits opening (line.take opening.length) &&
    fits closing (line.drop (line.length - closing.length))

end LintSuite.LineLength
