import LintSuite.Decimal.Layout
import LintSuite.Settings.Basic

/-!
# Writing a settings text

Settings are written as one object, a member to a line, in a fixed order and with all members there.
A list that is not empty has a line for each element.  In a string only the quote, the backslash and
the control characters are escaped.
-/

namespace LintSuite.Settings

/-- A hexadecimal digit. -/
def hexDigit (n : Nat) : Char :=
  if n < 10 then Char.ofNat (n + '0'.toNat) else Char.ofNat (n - 10 + 'a'.toNat)

/-- One character between quotes. -/
def escaped (c : Char) : List Char :=
  if c = '"' then ['\\', '"']
  else if c = '\\' then ['\\', '\\']
  else if c = '\x08' then ['\\', 'b']
  else if c = '\x0c' then ['\\', 'f']
  else if c = '\n' then ['\\', 'n']
  else if c = '\r' then ['\\', 'r']
  else if c = '\t' then ['\\', 't']
  else if c.toNat < 0x20 then
    ['\\', 'u', '0', '0', hexDigit (c.toNat / 16), hexDigit (c.toNat % 16)]
  else [c]

/-- A string. -/
def writtenString (s : String) : List Char :=
  ['"'] ++ s.toList.flatMap escaped ++ ['"']

/-- The elements of a list, a line for each. -/
def writtenElements : List String → List Char
  | [] => []
  | [s] => "\n    ".toList ++ writtenString s
  | s :: rest => "\n    ".toList ++ writtenString s ++ ',' :: writtenElements rest

/-- A list of strings. -/
def writtenList (ss : List String) : List Char :=
  match ss with
  | [] => ['[', ']']
  | ss => '[' :: writtenElements ss ++ "\n  ]".toList

/-- A member of the object. -/
def writtenMember (key : String) (value : List Char) : List Char :=
  "\n  ".toList ++ writtenString key ++ [':', ' '] ++ value

/-- The members of the object in their order. -/
def writtenMembers (s : Settings) : List (List Char) :=
  [writtenMember "confidence" (Decimal.render Decimal.stored s.confidence).toList,
    writtenMember "ignore" (writtenList s.ignore),
    writtenMember "length" (Decimal.digitsOf s.length.toNat),
    writtenMember "over" (Decimal.digitsOf s.complexity.toNat),
    writtenMember "prune" (writtenList s.prune),
    writtenMember "quiet" (if s.quiet then "true" else "false").toList,
    writtenMember "skip" (writtenList s.skip)]

/-- **A settings text.** -/
def written (s : Settings) : String :=
  String.ofList (['\x7b'] ++ [','].intercalate s.writtenMembers ++ ['\n', '\x7d', '\n'])

end LintSuite.Settings
