/-!
# Faults of a settings text

A settings text is refused at a position, for a cause.  The cause says what was expected or wrong;
it falls into one of three classes: the text ended early, it is well-formed but says the wrong
thing, or it is not well-formed.

Positions count lines from one and the bytes read on the line.
-/

namespace LintSuite.Json

/-- A position in a text. -/
structure Position where
  /-- The line, from one. -/
  line : Nat := 1
  /-- The bytes read on the line. -/
  column : Nat := 0
  deriving DecidableEq, Repr

namespace Position

/-- The position behind a character. -/
def after (p : Position) (c : Char) : Position :=
  if c = '\n' then ⟨p.line + 1, 0⟩ else ⟨p.line, p.column + c.utf8Size⟩

/-- The position behind the first byte of a character. -/
def afterByte (p : Position) (c : Char) : Position :=
  if c = '\n' then ⟨p.line + 1, 0⟩ else ⟨p.line, p.column + 1⟩

/-- The position one byte further on in a text, or here at its end. -/
def peek (p : Position) : List Char → Position
  | [] => p
  | c :: _ => p.afterByte c

/-- The position behind a text. -/
def afterAll (p : Position) (cs : List Char) : Position :=
  cs.foldl after p

/-- The position behind a number of bytes of a text, if it has so many. -/
def afterBytes? (p : Position) : Nat → List Char → Option Position
  | 0, _ => some p
  | _ + 1, [] => none
  | n + 1, c :: rest =>
    if n + 1 < c.utf8Size then some ⟨p.line, p.column + (n + 1)⟩
    else afterBytes? (p.after c) (n + 1 - c.utf8Size) rest
  termination_by _ cs => cs.length

end Position

/-- Why a text is refused. -/
inductive Cause where
  /-- The text ended where a value should stand. -/
  | endInValue
  /-- The text ended inside an object. -/
  | endInObject
  /-- The text ended inside a list. -/
  | endInList
  /-- The text ended inside a string. -/
  | endInString
  /-- No value starts like this. -/
  | expectedValue
  /-- A word that is none of the three known ones. -/
  | expectedWord
  /-- A key without a colon. -/
  | expectedColon
  /-- Neither a comma nor the end of the object. -/
  | expectedObjectEnd
  /-- Neither a comma nor the end of the list. -/
  | expectedListEnd
  /-- A key that is no string. -/
  | keyNotString
  /-- A comma before the end. -/
  | trailingComma
  /-- More text behind the end. -/
  | trailingText
  /-- A number in a wrong form. -/
  | malformedNumber
  /-- A number too large to be held. -/
  | numberTooLarge
  /-- A backslash before something that needs none. -/
  | malformedEscape
  /-- Half of a surrogate pair. -/
  | loneSurrogate
  /-- The first half of a surrogate pair, with no escape behind it. -/
  | unpairedSurrogate
  /-- A control character inside a string. -/
  | controlCharacter
  /-- A key for the second time. -/
  | duplicateField (name : String)
  /-- A value of the wrong type. -/
  | wrongType (found wanted : String)
  /-- A value of the right type, but out of range. -/
  | wrongValue (found wanted : String)
  deriving DecidableEq, Repr

/-- The classes of causes. -/
inductive FaultClass where
  /-- The text ended early. -/
  | early
  /-- The text says the wrong thing. -/
  | wrong
  /-- The text is not well-formed. -/
  | malformed
  deriving DecidableEq, Repr

namespace Cause

/-- The class of a cause. -/
def faultClass : Cause → FaultClass
  | .endInValue | .endInObject | .endInList | .endInString => .early
  | .duplicateField _ | .wrongType _ _ | .wrongValue _ _ => .wrong
  | _ => .malformed

/-- The text of a cause. -/
def text : Cause → String
  | .endInValue => "EOF while parsing a value"
  | .endInObject => "EOF while parsing an object"
  | .endInList => "EOF while parsing a list"
  | .endInString => "EOF while parsing a string"
  | .expectedValue => "expected value"
  | .expectedWord => "expected ident"
  | .expectedColon => "expected `:`"
  | .expectedObjectEnd => "expected `,` or `\x7d`"
  | .expectedListEnd => "expected `,` or `]`"
  | .keyNotString => "key must be a string"
  | .trailingComma => "trailing comma"
  | .trailingText => "trailing characters"
  | .malformedNumber => "invalid number"
  | .numberTooLarge => "number out of range"
  | .malformedEscape => "invalid escape"
  | .loneSurrogate => "lone leading surrogate in hex escape"
  | .unpairedSurrogate => "unexpected end of hex escape"
  | .controlCharacter => "control character (\\u0000-\\u001F) found while parsing a string"
  | .duplicateField name => "duplicate field `" ++ name ++ "`"
  | .wrongType found wanted => "invalid type: " ++ found ++ ", expected " ++ wanted
  | .wrongValue found wanted => "invalid value: " ++ found ++ ", expected " ++ wanted

end Cause

/-- **A fault** of a settings text. -/
structure Fault where
  /-- Why the text is refused. -/
  cause : Cause
  /-- Where. -/
  position : Position
  deriving DecidableEq, Repr

/-- The text of a fault. -/
def Fault.message (f : Fault) : String :=
  f.cause.text ++ " at line " ++ toString f.position.line ++ " column " ++
    toString f.position.column

end LintSuite.Json
