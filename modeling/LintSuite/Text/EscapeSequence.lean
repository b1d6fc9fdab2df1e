import LintSuite.Text.Utf8

/-!
# Escape sequences of terminals

A terminal is told about styles, and about much else, by sequences of characters that begin with an
escape.  A text that goes elsewhere has them taken out, and with them every control character that
is no white space.

The machine follows the terminal (`advance`): a short sequence ends with its last letter, one that
carries a text with the next escape, with a bell if it carries a title, or else with the octet `9C`.
White space inside a short sequence is kept.  A message that is built is over with the sequence then
(`withoutEscapes`).  A text that is printed only pauses it: what follows the white space is printed
up to the next character that cannot be, and from there on the sequence continues (`shown`).
-/

namespace LintSuite.Text.EscapeSequence

/-- Where in a sequence a text stands. -/
inductive Place where
  /-- Outside of sequences. -/
  | outside
  /-- Behind an escape. -/
  | escape
  /-- Behind an escape and signs that come before its letter. -/
  | intermediate
  /-- Inside a control sequence. -/
  | control
  /-- At the head of a sequence for a device. -/
  | device
  /-- Behind the numbers at the head of a sequence for a device. -/
  | deviceNumbers
  /-- Behind the signs at the head of a sequence for a device. -/
  | deviceSigns
  /-- Inside a sequence with a title. -/
  | title
  /-- Inside a sequence with another text. -/
  | carrying
  deriving DecidableEq, Repr

/-- White space that the machine keeps. -/
def isKept (c : Char) : Bool := c == '\t' || c == '\n' || c == '\x0c' || c == '\r'

/-- Whether a character holds the octet that ends a text. -/
def holdsTerminator (c : Char) : Bool := 0x80 ≤ c.toNat && (Utf8.encode [c]).contains 0x9C

/-- Where the character behind an escape leads. -/
def behindEscape (c : Char) : Place :=
  if c.toNat < 0x20 || 0x7F ≤ c.toNat then .escape
  else if c.toNat < 0x30 then .intermediate
  else if c = '[' then .control
  else if c = ']' then .title
  else if c = 'P' then .device
  else if c = 'X' || c = '^' || c = '_' then .carrying
  else .outside

/-- Where a character at the head of a sequence for a device leads; `stray` is where a sign leads
that numbers cannot follow. -/
def inDevice (place stray : Place) (c : Char) : Place :=
  if c.toNat < 0x20 || 0x7F ≤ c.toNat then place
  else if c.toNat < 0x30 then .deviceSigns
  else if c.toNat < 0x3C then (if place = .deviceSigns then .carrying else .deviceNumbers)
  else if c.toNat < 0x40 then stray
  else .carrying

/-- **One character**: whether it is kept, and where the text stands behind it. -/
def advance (place : Place) (c : Char) : Bool × Place :=
  if c = '\x1b' then (false, .escape)
  else if c = '\x18' || c = '\x1a' then (false, .outside)
  else match place with
    | .outside => ((0x20 ≤ c.toNat && c.toNat != 0x7F) || isKept c, .outside)
    | .escape => if isKept c then (true, place) else (false, behindEscape c)
    | .intermediate =>
      if isKept c then (true, place)
      else (false, if 0x30 ≤ c.toNat && c.toNat < 0x7F then .outside else place)
    | .control =>
      if isKept c then (true, place)
      else (false, if 0x40 ≤ c.toNat && c.toNat < 0x7F then .outside else place)
    | .device => (false, inDevice place .deviceNumbers c)
    | .deviceNumbers | .deviceSigns => (false, inDevice place .carrying c)
    | .title => (false, if c = '\x07' then .outside else place)
    | .carrying => (false, if holdsTerminator c then .outside else place)

/-- The characters that are kept, from a place on, if each ends the sequence it stands in. -/
def keptFrom (place : Place) : List Char → List Char
  | [] => []
  | c :: rest =>
    let (keep, next) := advance place c
    if keep then c :: keptFrom .outside rest else keptFrom next rest

/-- **A text without its escape sequences.** -/
def withoutEscapes (s : String) : String :=
  String.ofList (keptFrom .outside s.toList)

/-- The characters that are printed, from a place on; `running` tells that the character before was
printed.  A character of several octets leaves the sequence. -/
def shownFrom (running : Bool) (place : Place) : List Char → List Char
  | [] => []
  | c :: rest =>
    let (keep, next) := advance place c
    if running && (advance .outside c).1 then
      c :: shownFrom true (if c.toNat < 0x80 then place else .outside) rest
    else if keep then c :: shownFrom true next rest
    else shownFrom false next rest

/-- **A text as it is printed** where no escape sequences can be. -/
def shown (s : String) : String :=
  String.ofList (shownFrom false .outside s.toList)

end LintSuite.Text.EscapeSequence
