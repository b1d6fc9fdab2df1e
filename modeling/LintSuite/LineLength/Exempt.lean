import LintSuite.Text.Blank

/-!
# Lines that may run long

Two kinds of lines cannot be broken and are exempt from the limit: compiler directives, and fields
of a structure with a block of tags at the end of the line.  Such a block stands between back-ticks
and holds one or more pairs of a key and a quoted value.

A back-tick may also stand inside a value, so every back-tick of the line is tried as the start of a
block; from there the reading is determined character by character (`Tag.step`).
-/

namespace LintSuite.LineLength

open Text

/-- The start of a compiler directive. -/
def directive : List Char := ['/', '/', 'g', 'o', ':']

/-- The characters of a key. -/
def isKeyChar (c : Char) : Bool :=
  c.isAlphanum || c == '_' || c == '.' || c == '-'

/-- Where the reading of a block of tags stands. -/
inductive Tag where
  /-- Behind the opening back-tick: a key must follow. -/
  | opened
  /-- Inside a key. -/
  | key
  /-- Behind the colon: a quote must follow. -/
  | colon
  /-- Inside a value. -/
  | value
  /-- Behind a value: blanks, another key or the closing back-tick. -/
  | between
  /-- Behind the closing back-tick: blanks alone. -/
  | closed
  deriving DecidableEq, Repr

/-- One character of a block, or of what follows it. -/
def Tag.step : Tag → Char → Option Tag
  | .opened, c => if isKeyChar c then some .key else none
  | .key, c => if isKeyChar c then some .key else if c == ':' then some .colon else none
  | .colon, c => if c == '"' then some .value else none
  | .value, c => some (if c == '"' then .between else .value)
  | .between, c =>
    if isBlank c then some .between
    else if isKeyChar c then some .key
    else if c == '\x60' then some .closed
    else none
  | .closed, c => if isBlank c then some .closed else none

/-- Whether the rest of a line completes a block and holds nothing but blanks behind it. -/
def completes : Tag → List Char → Bool
  | t, [] => t == .closed
  | t, c :: rest =>
    match t.step c with
    | some t' => completes t' rest
    | none => false

/-- Whether a line ends in a block of tags, from some back-tick on. -/
def endsInTags : List Char → Bool
  | [] => false
  | c :: rest => (c == '\x60' && completes .opened rest) || endsInTags rest

/-- **Exempt lines.** -/
def isExempt (line : List Char) : Bool :=
  directive.isPrefixOf line || endsInTags line

end LintSuite.LineLength
