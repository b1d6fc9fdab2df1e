import LintSuite.Decimal.Nearest
import LintSuite.Decimal.Reading
import LintSuite.Json.Cursor

/-!
# Numbers of a settings text

A number is a whole number of sixty-four bits if it is written as one and fits, and a fraction
otherwise; a negative zero is a fraction too, as only fractions have its sign.

A fraction is found from its leading digits, as many as fit into sixty-four bits, and one power of
ten: it is their product or quotient, rounded once for the digits and once for the result.  For up
to fifteen digits and small powers this is the nearest fraction; beyond, it may be a neighbour of
it.
-/

namespace LintSuite.Json

open Decimal

/-- **A number** of a settings text. -/
inductive Number where
  /-- A whole number that is not negative. -/
  | natural (n : UInt64)
  /-- A negative whole number, by what is below zero. -/
  | negative (n : UInt64)
  /-- A fraction. -/
  | fraction (x : Float)
  deriving Repr

/-- The first whole number that does not fit into sixty-four bits. -/
def wordLimit : Nat := UInt64.size

/-- The greatest exponent that is read to its end. -/
def exponentLimit : Nat := 0x7FFFFFFF

/-- Digits taken up behind a value, as long as the result fits, and the digits left. -/
def gather (value : Nat) : List Char → Nat × List Char
  | [] => (value, [])
  | d :: ds =>
    let more := value * 10 + (d.toNat - '0'.toNat)
    if more < wordLimit then gather more ds else (value, d :: ds)

/-- A power of ten with an exponent from 0 to 308, as a fraction. -/
def power (e : Nat) : Float :=
  nearest false ⟨1, e⟩

/-- A value scaled by a power of ten, unless the result is too large.  Powers below the least one
are taken in several steps. -/
def scaleBy (x : Float) (e : Int) : Option Float :=
  if 0 ≤ e then
    if x == 0.0 then some x
    else if 308 < e then none
    else
      let y := x * power e.toNat
      if y.isInf then none else some y
  else if -308 ≤ e then some (x / power (-e).toNat)
  else if x == 0.0 then some x
  else scaleBy (x / power 308) (e + 308)
  termination_by e.natAbs
  decreasing_by omega

/-- A value with a sign. -/
def signed (negative : Bool) (x : Float) : Float :=
  if negative then -x else x

/-- The fraction with the given digits and exponent, read up to the cursor. -/
def fractionOf (negative : Bool) (digits : Nat) (e : Int) (cur : Cursor) :
    Except Fault (Number × Cursor) :=
  match scaleBy (nearest false ⟨digits, 0⟩) e with
  | some x => .ok (.fraction (signed negative x), cur)
  | none => cur.fault .numberTooLarge

/-- The digits that come next. -/
def digitRun (cur : Cursor) : List Char :=
  cur.rest.takeWhile Char.isDigit

/-- The value of exponent digits and the digits that are left when it has grown beyond the limit. -/
def gatherExponent (value : Nat) : List Char → Except (List Char) Nat
  | [] => .ok value
  | d :: ds =>
    let more := value * 10 + (d.toNat - '0'.toNat)
    if more ≤ exponentLimit then gatherExponent more ds else .error ds

/-- An exponent kept within the bounds of its machine word. -/
def clampExponent (e : Int) : Int :=
  max (-2147483648) (min 2147483647 e)

/-- Reading what follows the mark of an exponent. -/
def readExponent (negative : Bool) (digits : Nat) (start : Int) (cur : Cursor) :
    Except Fault (Number × Cursor) :=
  let (below, cur) := match cur.rest with
    | '+' :: _ => (false, cur.next)
    | '-' :: _ => (true, cur.next)
    | _ => (false, cur)
  match cur.rest with
  | [] => cur.fault .endInValue
  | c :: _ =>
    if !c.isDigit then .error ⟨.malformedNumber, cur.position.afterByte c⟩
    else
      let run := digitRun cur
      match gatherExponent 0 run with
      | .ok e =>
        fractionOf negative digits (clampExponent (if below then start - e else start + e))
          (cur.past run)
      | .error left =>
        if digits != 0 && !below then
          (cur.past (run.take (run.length - left.length))).fault .numberTooLarge
        else .ok (.fraction (signed negative 0.0), cur.past run)

/-- Reading what may follow the digits of a fraction. -/
def readFractionEnd (negative : Bool) (digits : Nat) (e : Int) (cur : Cursor) :
    Except Fault (Number × Cursor) :=
  match cur.rest with
  | 'e' :: _ => readExponent negative digits e cur.next
  | 'E' :: _ => readExponent negative digits e cur.next
  | _ => fractionOf negative digits e cur

/-- Reading what follows a point. -/
def readPlaces (negative : Bool) (digits : Nat) (start : Int) (cur : Cursor) :
    Except Fault (Number × Cursor) :=
  let run := digitRun cur
  if run.isEmpty then
    match cur.rest with
    | [] => cur.fault .endInValue
    | _ => cur.faultNext .malformedNumber
  else
    let (more, left) := gather digits run
    readFractionEnd negative more (start - ((run.length - left.length : Nat) : Int)) (cur.past run)

/-- The whole number with a sign and digits that fit. -/
def wholeNumber (negative : Bool) (n : Nat) : Number :=
  if !negative then .natural (UInt64.ofNat n)
  else if n = 0 || 0x8000000000000000 < n then .fraction (signed true (nearest false ⟨n, 0⟩))
  else .negative (UInt64.ofNat n)

/-- **Reading a number** behind its sign. -/
def readNumber (negative : Bool) (cur : Cursor) : Except Fault (Number × Cursor) :=
  match cur.rest with
  | [] => cur.fault .endInValue
  | c :: rest =>
    if !c.isDigit then .error ⟨.malformedNumber, cur.position.afterByte c⟩
    else
      let run := if c = '0' then ['0'] else digitRun cur
      if c = '0' && (rest.head?.map Char.isDigit).getD false then
        cur.next.faultNext .malformedNumber
      else
        let (n, left) := gather 0 run
        let behind := cur.past run
        match behind.rest with
        | '.' :: _ => readPlaces negative n left.length behind.next
        | 'e' :: _ => readExponent negative n left.length behind.next
        | 'E' :: _ => readExponent negative n left.length behind.next
        | _ =>
          if left.isEmpty then .ok (wholeNumber negative n, behind)
          else fractionOf negative n left.length behind

/-- Skipping the exponent of a number behind its mark. -/
def skipExponent (cur : Cursor) : Except Fault Cursor :=
  let cur := match cur.rest with
    | '+' :: _ => cur.next
    | '-' :: _ => cur.next
    | _ => cur
  match cur.rest with
  | [] => cur.fault .malformedNumber
  | c :: _ =>
    if c.isDigit then .ok (cur.past (digitRun cur))
    else .error ⟨.malformedNumber, cur.position.afterByte c⟩

/-- Skipping what may follow the digits of a number. -/
def skipNumberEnd (cur : Cursor) : Except Fault Cursor :=
  match cur.rest with
  | 'e' :: _ => skipExponent cur.next
  | 'E' :: _ => skipExponent cur.next
  | _ => .ok cur

/-- **Skipping a number** behind its sign: only its form matters. -/
def skipNumber (cur : Cursor) : Except Fault Cursor :=
  match cur.rest with
  | [] => cur.fault .malformedNumber
  | c :: rest =>
    if !c.isDigit then .error ⟨.malformedNumber, cur.position.afterByte c⟩
    else if c = '0' && (rest.head?.map Char.isDigit).getD false then
      cur.next.faultNext .malformedNumber
    else
      let behind := cur.past (if c = '0' then ['0'] else digitRun cur)
      match behind.rest with
      | '.' :: _ =>
        let point := behind.next
        let run := digitRun point
        if run.isEmpty then point.faultNext .malformedNumber else skipNumberEnd (point.past run)
      | _ => skipNumberEnd behind

end LintSuite.Json
