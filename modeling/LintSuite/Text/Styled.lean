import LintSuite.Text.EscapeSequence

/-!
# Styled text

Help and refusals are written in styles, which say what a piece of the text is.  A terminal shows
them by escape sequences; where there is no terminal the same text goes out without them.  What was
quoted from the user may hold escape sequences of its own, and goes the same way.
-/

namespace LintSuite.Text

/-- What a piece of a text is. -/
inductive Style where
  /-- Nothing in particular. -/
  | plain
  /-- A heading. -/
  | heading
  /-- Something to be typed as it is. -/
  | literal
  /-- The announcement of a failure. -/
  | failure
  /-- Something that is wrong. -/
  | invalid
  /-- Something that would be right. -/
  | valid
  deriving DecidableEq, Repr

/-- The sequences that begin a style. -/
def Style.sequence : Style → String
  | .plain => ""
  | .heading => "\x1b[1m\x1b[4m"
  | .literal => "\x1b[1m"
  | .failure => "\x1b[1m\x1b[31m"
  | .invalid => "\x1b[33m"
  | .valid => "\x1b[32m"

/-- A piece of a text in one style. -/
structure Span where
  /-- The style. -/
  style : Style
  /-- The text. -/
  text : String
  deriving DecidableEq, Repr

/-- The piece as a terminal takes it. -/
def Span.colored (s : Span) : String :=
  if s.style = .plain then s.text else s.style.sequence ++ s.text ++ "\x1b[0m"

/-- **A styled text.** -/
abbrev Styled := List Span

namespace Styled

/-- A text in no particular style. -/
def plain (text : String) : Styled := [⟨.plain, text⟩]

/-- A text in a style. -/
def inStyle (style : Style) (text : String) : Styled := [⟨style, text⟩]

/-- A text in a style between single quotes. -/
def quoted (style : Style) (text : String) : Styled :=
  plain "'" ++ inStyle style text ++ plain "'"

/-- The number of characters, styles aside. -/
def width (s : Styled) : Nat := s.foldl (fun n piece => n + piece.text.length) 0

/-- The text as a terminal takes it. -/
def colored (s : Styled) : String := String.join (s.map Span.colored)

/-- **The text as it is printed**, with styles or without. -/
def printed (color : Bool) (s : Styled) : String :=
  if color then s.colored else EscapeSequence.shown s.colored

/-- **The text alone**, as a part of a message. -/
def text (s : Styled) : String := EscapeSequence.withoutEscapes s.colored

end Styled

end LintSuite.Text
