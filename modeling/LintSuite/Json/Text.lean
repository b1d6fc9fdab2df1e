import LintSuite.Json.Cursor

/-!
# Strings of a settings text

A string is read one character at a time by a machine (`TextState`) that knows whether it stands
behind a backslash, among the digits of an escape, or between the halves of a surrogate pair.

A string whose value matters is read strictly: control characters must be escaped, and surrogates
must come in pairs.  In a string that is only skipped (`strict := false`) the digits of an escape
must be there and nothing is asked of their value.  A control character is a fault in either: it
counts as read where the string is read strictly, and is only looked at where it is skipped.
-/

namespace LintSuite.Json

/-- Where the reading of a string stands. -/
inductive TextState where
  /-- Between characters. -/
  | plain
  /-- Behind a backslash. -/
  | escaped
  /-- Among the digits of an escape: how many are to come, their value so far, and the first half of
  the pair that this escape must complete. -/
  | digits (left value : Nat) (high : Option Nat)
  /-- Behind the first half of a pair. -/
  | paired (high : Nat)
  /-- Behind the first half of a pair and a backslash. -/
  | pairEscaped (high : Nat)
  deriving DecidableEq, Repr

/-- The value of a hexadecimal digit. -/
def hexValue? (c : Char) : Option Nat :=
  if c.isDigit then some (c.toNat - '0'.toNat)
  else if 'a' ≤ c && c ≤ 'f' then some (c.toNat - 'a'.toNat + 10)
  else if 'A' ≤ c && c ≤ 'F' then some (c.toNat - 'A'.toNat + 10)
  else none

/-- The character of a short escape. -/
def shortEscape? (c : Char) : Option Char :=
  if c == '"' || c == '\\' || c == '/' then some c
  else if c == 'b' then some '\x08'
  else if c == 'f' then some '\x0c'
  else if c == 'n' then some '\n'
  else if c == 'r' then some '\r'
  else if c == 't' then some '\t'
  else none

/-- Whether a code unit is the first half of a pair. -/
def isHighSurrogate (n : Nat) : Bool := 0xD800 ≤ n && n ≤ 0xDBFF

/-- Whether a code unit is the second half of a pair. -/
def isLowSurrogate (n : Nat) : Bool := 0xDC00 ≤ n && n ≤ 0xDFFF

/-- The character of a surrogate pair. -/
def pairChar (high low : Nat) : Char :=
  Char.ofNat ((high - 0xD800) * 0x400 + (low - 0xDC00) + 0x10000)

/-- The fault of an escape whose digits are not all digits: it is noticed once their bytes are
read, and if the text does not have so many, it ended inside the string. -/
def digitFault (cur : Cursor) (left : Nat) : Fault :=
  match cur.position.afterBytes? left cur.rest with
  | some p => ⟨.malformedEscape, p⟩
  | none => ⟨.endInString, cur.position.afterAll cur.rest⟩

/-- What the value of an escape means: a character, or the first half of a pair. -/
def escapeValue (strict : Bool) (n : Nat) (high : Option Nat) :
    Except Cause (TextState × List Char) :=
  match high with
  | some h => if isLowSurrogate n then .ok (.plain, [pairChar h n]) else .error .loneSurrogate
  | none =>
    if !strict then .ok (.plain, [])
    else if isLowSurrogate n then .error .loneSurrogate
    else if isHighSurrogate n then .ok (.paired n, [])
    else .ok (.plain, [Char.ofNat n])

/-- Reading a string from a state, with the characters so far in reverse. -/
def readTextFrom (strict : Bool) (state : TextState) (before : List Char) (position : Position) :
    List Char → Except Fault (List Char × Cursor)
  | [] => .error ⟨.endInString, position⟩
  | c :: rest =>
    let behind := position.after c
    match state with
    | .plain =>
      if c = '"' then .ok (before.reverse, ⟨rest, behind⟩)
      else if c = '\\' then readTextFrom strict .escaped before behind rest
      else if c.toNat < 0x20 then
        .error ⟨.controlCharacter, if strict then position.afterByte c else position⟩
      else readTextFrom strict .plain (c :: before) behind rest
    | .escaped =>
      if c = 'u' then readTextFrom strict (.digits 4 0 none) before behind rest
      else match shortEscape? c with
        | some e => readTextFrom strict .plain (e :: before) behind rest
        | none => .error ⟨.malformedEscape, position.afterByte c⟩
    | .digits left value high =>
      match hexValue? c with
      | none => .error (digitFault ⟨c :: rest, position⟩ left)
      | some d =>
        let n := value * 16 + d
        if 1 < left then readTextFrom strict (.digits (left - 1) n high) before behind rest
        else match escapeValue strict n high with
          | .ok (next, chars) => readTextFrom strict next (chars ++ before) behind rest
          | .error cause => .error ⟨cause, behind⟩
    | .paired high =>
      if c = '\\' then readTextFrom strict (.pairEscaped high) before behind rest
      else .error ⟨.unpairedSurrogate, position.afterByte c⟩
    | .pairEscaped high =>
      if c = 'u' then readTextFrom strict (.digits 4 0 (some high)) before behind rest
      else .error ⟨.unpairedSurrogate, position.afterByte c⟩

/-- **Reading a string** behind its opening quote. -/
def readText (cur : Cursor) : Except Fault (String × Cursor) :=
  match readTextFrom true .plain [] cur.position cur.rest with
  | .ok (cs, behind) => .ok (String.ofList cs, behind)
  | .error e => .error e

/-- **Skipping a string** behind its opening quote. -/
def skipText (cur : Cursor) : Except Fault Cursor :=
  match readTextFrom false .plain [] cur.position cur.rest with
  | .ok (_, behind) => .ok behind
  | .error e => .error e

end LintSuite.Json
