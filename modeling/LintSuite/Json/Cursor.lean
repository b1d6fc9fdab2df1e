import LintSuite.Json.Fault

/-!
# Reading a text from left to right

A cursor is what is left of a text, with the position of what was read.  A reader takes a cursor and
gives a value with the cursor behind it, or a fault.
-/

namespace LintSuite.Json

/-- **A cursor**: the rest of a text, and the position before it. -/
structure Cursor where
  /-- What is left of the text. -/
  rest : List Char
  /-- The position of what was read. -/
  position : Position
  deriving DecidableEq, Repr

namespace Cursor

/-- The start of a text. -/
def ofText (text : String) : Cursor := ⟨text.toList, {}⟩

/-- A fault at the cursor. -/
def fault {α : Type} (cur : Cursor) (cause : Cause) : Except Fault α :=
  .error ⟨cause, cur.position⟩

/-- A fault at the next byte. -/
def faultNext {α : Type} (cur : Cursor) (cause : Cause) : Except Fault α :=
  .error ⟨cause, cur.position.peek cur.rest⟩

/-- The cursor behind the next character, if there is one. -/
def next (cur : Cursor) : Cursor :=
  match cur.rest with
  | [] => cur
  | c :: rest => ⟨rest, cur.position.after c⟩

/-- The cursor behind the given characters, which are the next ones. -/
def past (cur : Cursor) (read : List Char) : Cursor :=
  ⟨cur.rest.drop read.length, cur.position.afterAll read⟩

end Cursor

/-- The blanks between the parts of a settings text. -/
def isSpace (c : Char) : Bool :=
  c == ' ' || c == '\n' || c == '\t' || c == '\r'

/-- The cursor behind blanks. -/
def Cursor.skipSpace (cur : Cursor) : Cursor :=
  cur.past (cur.rest.takeWhile isSpace)

/-- Reading the rest of a word, letter by letter. -/
def readWord (cur : Cursor) : List Char → Except Fault Cursor
  | [] => .ok cur
  | w :: word =>
    match cur.rest with
    | [] => cur.fault .endInValue
    | c :: _ =>
      if c = w then readWord cur.next word
      else .error ⟨.expectedWord, cur.position.afterByte c⟩

end LintSuite.Json
