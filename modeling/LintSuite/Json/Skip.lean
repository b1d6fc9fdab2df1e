import LintSuite.Json.Number
import LintSuite.Json.Text

/-!
# Skipping a value

A value under an unknown key is skipped, however deeply it is nested: only its form matters.  The
containers that are still open lie on a stack; a step of the machine either reads a value, or reads
what may stand between two values of the innermost container.
-/

namespace LintSuite.Json

/-- A container that is still open. -/
inductive Container where
  /-- A list. -/
  | list
  /-- An object. -/
  | object
  deriving DecidableEq, Repr

namespace Container

/-- The character that closes a container. -/
def closing : Container → Char
  | .list => ']'
  | .object => '\x7d'

/-- The cause if the text ends in a container. -/
def endCause : Container → Cause
  | .list => .endInList
  | .object => .endInObject

/-- The cause if neither a comma nor the end follows. -/
def separatorCause : Container → Cause
  | .list => .expectedListEnd
  | .object => .expectedObjectEnd

end Container

/-- What the machine reads next. -/
inductive SkipState where
  /-- A value. -/
  | value
  /-- What stands behind a value of the innermost container, or in front of the first one. -/
  | between (behindValue : Bool)
  deriving DecidableEq, Repr

/-- Reading the colon behind a key. -/
def readColon (cur : Cursor) : Except Fault Cursor :=
  let cur := cur.skipSpace
  match cur.rest with
  | [] => cur.fault .endInObject
  | ':' :: _ => .ok cur.next
  | _ => cur.faultNext .expectedColon

/-- Skipping the key and the colon in front of a value of a container. -/
def skipKey (cur : Cursor) : Container → Except Fault Cursor
  | .list => .ok cur
  | .object => do
    let cur := cur.skipSpace
    match cur.rest with
    | [] => cur.fault .endInObject
    | '"' :: _ => readColon (← skipText cur.next)
    | _ => cur.faultNext .keyNotString

/-- A value without parts: the cursor behind it, or `none` for a container. -/
def skipLeaf (cur : Cursor) : Except Fault (Option Cursor) :=
  match cur.rest with
  | [] => cur.fault .endInValue
  | c :: _ =>
    if c = 'n' then (readWord cur.next ['u', 'l', 'l']).map some
    else if c = 't' then (readWord cur.next ['r', 'u', 'e']).map some
    else if c = 'f' then (readWord cur.next ['a', 'l', 's', 'e']).map some
    else if c = '-' then (skipNumber cur.next).map some
    else if c.isDigit then (skipNumber cur).map some
    else if c = '"' then (skipText cur.next).map some
    else if c = '[' || c = '\x7b' then .ok none
    else cur.faultNext .expectedValue

/-- The machine, with a bound on its steps and the stack of open containers. -/
def skipFrom : Nat → SkipState → List Container → Cursor → Except Fault Cursor
  | 0, _, _, cur => cur.fault .endInValue
  | steps + 1, .value, stack, cur => do
    let cur := cur.skipSpace
    match ← skipLeaf cur with
    | some behind =>
      if stack.isEmpty then .ok behind else skipFrom steps (.between true) stack behind
    | none =>
      let opened := if cur.rest.head? = some '[' then Container.list else .object
      skipFrom steps (.between false) (opened :: stack) cur.next
  | steps + 1, .between behindValue, stack, cur =>
    match stack with
    | [] => .ok cur
    | top :: others => do
      let cur := cur.skipSpace
      match cur.rest with
      | [] => cur.fault top.endCause
      | c :: _ =>
        if behindValue && c = ',' then
          skipFrom steps .value stack (← skipKey cur.next top)
        else if c = top.closing then
          if others.isEmpty then .ok cur.next
          else skipFrom steps (.between true) others cur.next
        else if behindValue then cur.faultNext top.separatorCause
        else skipFrom steps .value stack (← skipKey cur top)

/-- **Skipping a value.**  Each character takes at most two steps. -/
def skipValue (cur : Cursor) : Except Fault Cursor :=
  skipFrom (2 * cur.rest.length + 2) .value [] cur

end LintSuite.Json
