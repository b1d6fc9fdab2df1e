import LintSuite.Decimal.Layout
import LintSuite.Json.Skip
import LintSuite.Settings.Basic
import LintSuite.Text.Quoted

/-!
# Reading a settings text

A settings text is one object whose members are settings; the members may come in any order, each at
most once, and those with unknown keys are skipped.  A list is read too: its elements are the
settings in their order.  What the text does not give is at its default.

Values are read by the type their setting has (`readFloat`, `readWhole`, `readBool`, `readStrings`),
so a value of the wrong type is refused where it stands.
-/

namespace LintSuite.Settings

open Json

/-! ## Values by type -/

/-- What a message calls a number. -/
def numberName : Number → String
  | .natural n => "integer `" ++ toString n.toNat ++ "`"
  | .negative n => "integer `-" ++ toString n.toNat ++ "`"
  | .fraction x => "floating point `" ++ Decimal.render Decimal.stored x ++ "`"

/-- A fault behind a value of the wrong type. -/
def typeFault {α : Type} (found wanted : String) (cur : Cursor) : Except Fault α :=
  cur.fault (.wrongType found wanted)

/-- **The fault of a value of the wrong type.**  The value is read as far as a message names it: in
full if it has no parts, and not at all if it has. -/
def refuse {α : Type} (wanted : String) (cur : Cursor) : Except Fault α :=
  match cur.rest with
  | [] => cur.fault .expectedValue
  | c :: _ => do
    if c = 'n' then typeFault "null" wanted (← readWord cur.next ['u', 'l', 'l'])
    else if c = 't' then typeFault "boolean `true`" wanted (← readWord cur.next ['r', 'u', 'e'])
    else if c = 'f' then
      typeFault "boolean `false`" wanted (← readWord cur.next ['a', 'l', 's', 'e'])
    else if c = '-' then
      let (n, behind) ← readNumber true cur.next
      typeFault (numberName n) wanted behind
    else if c.isDigit then
      let (n, behind) ← readNumber false cur
      typeFault (numberName n) wanted behind
    else if c = '"' then
      let (s, behind) ← readText cur.next
      typeFault ("string " ++ Text.Quoted.quote s) wanted behind
    else if c = '[' then typeFault "sequence" wanted cur
    else if c = '\x7b' then typeFault "map" wanted cur
    else cur.faultNext .expectedValue

/-- Reading a number, or refusing anything else. -/
def readAnyNumber (wanted : String) (cur : Cursor) : Except Fault (Number × Cursor) :=
  let cur := cur.skipSpace
  match cur.rest with
  | [] => cur.fault .endInValue
  | c :: _ =>
    if c = '-' then readNumber true cur.next
    else if c.isDigit then readNumber false cur
    else refuse wanted cur

/-- **Reading a fraction**; whole numbers are fractions too. -/
def readFloat (cur : Cursor) : Except Fault (Float × Cursor) := do
  let (n, behind) ← readAnyNumber "f64" cur
  match n with
  | .natural n => .ok (Decimal.nearest false ⟨n.toNat, 0⟩, behind)
  | .negative n => .ok (Decimal.nearest true ⟨n.toNat, 0⟩, behind)
  | .fraction x => .ok (x, behind)

/-- **Reading a whole number** below a bound. -/
def readWhole (wanted : String) (bound : Nat) (cur : Cursor) : Except Fault (Nat × Cursor) := do
  let (n, behind) ← readAnyNumber wanted cur
  match n with
  | .natural w =>
    if w.toNat < bound then .ok (w.toNat, behind)
    else behind.fault (.wrongValue (numberName n) wanted)
  | .negative _ => behind.fault (.wrongValue (numberName n) wanted)
  | .fraction _ => typeFault (numberName n) wanted behind

/-- **Reading a truth value.** -/
def readBool (cur : Cursor) : Except Fault (Bool × Cursor) := do
  let cur := cur.skipSpace
  match cur.rest with
  | [] => cur.fault .endInValue
  | c :: _ =>
    if c = 't' then .ok (true, ← readWord cur.next ['r', 'u', 'e'])
    else if c = 'f' then .ok (false, ← readWord cur.next ['a', 'l', 's', 'e'])
    else refuse "a boolean" cur

/-- Reading a string. -/
def readString (cur : Cursor) : Except Fault (String × Cursor) :=
  let cur := cur.skipSpace
  match cur.rest with
  | [] => cur.fault .endInValue
  | '"' :: _ => readText cur.next
  | _ => refuse "a string" cur

/-- Whether a list goes on, with the cursor before its next element or before its end. -/
def readElement? (first : Bool) (cur : Cursor) : Except Fault (Bool × Cursor) :=
  let cur := cur.skipSpace
  match cur.rest with
  | [] => cur.fault .endInList
  | c :: _ =>
    if c = ']' then .ok (false, cur)
    else if first then .ok (true, cur)
    else if c = ',' then
      let cur := cur.next.skipSpace
      match cur.rest with
      | [] => cur.fault .endInValue
      | ']' :: _ => cur.faultNext .trailingComma
      | _ => .ok (true, cur)
    else cur.faultNext .expectedListEnd

/-- Reading the elements of a list of strings up to its end, with a bound on their number. -/
def readStringsFrom : Nat → Bool → List String → Cursor → Except Fault (List String × Cursor)
  | 0, _, _, cur => cur.fault .endInList
  | steps + 1, first, before, cur => do
    let (more, cur) ← readElement? first cur
    if more then
      let (s, cur) ← readString cur
      readStringsFrom steps false (s :: before) cur
    else .ok (before.reverse, cur.next)

/-- **Reading a list of strings.** -/
def readStrings (cur : Cursor) : Except Fault (List String × Cursor) :=
  let cur := cur.skipSpace
  match cur.rest with
  | [] => cur.fault .endInValue
  | '[' :: _ => readStringsFrom (cur.rest.length + 1) true [] cur.next
  | _ => refuse "a sequence" cur

/-! ## Settings -/

/-- The settings that a text can give. -/
inductive Field where
  /-- The confidence from which style findings are reported. -/
  | confidence
  /-- Words that the spelling checks ignore. -/
  | ignore
  /-- The greatest length of a line. -/
  | length
  /-- The greatest complexity of a function. -/
  | complexity
  /-- Files and directories that are left out. -/
  | prune
  /-- Whether progress is hidden. -/
  | quiet
  /-- Files and directories that the whole-tree spelling check leaves out. -/
  | skip
  deriving DecidableEq, Repr

namespace Field

/-- The settings in their order. -/
def all : List Field := [.confidence, .ignore, .length, .complexity, .prune, .quiet, .skip]

/-- The key of a setting. -/
def key : Field → String
  | .confidence => "confidence"
  | .ignore => "ignore"
  | .length => "length"
  | .complexity => "over"
  | .prune => "prune"
  | .quiet => "quiet"
  | .skip => "skip"

/-- The setting of a key. -/
def ofKey? (text : String) : Option Field :=
  all.find? (·.key == text)

end Field

/-- Reading the value of a setting into the settings so far. -/
def readField (file : Settings) (field : Field) (cur : Cursor) :
    Except Fault (Settings × Cursor) := do
  match field with
  | .confidence => let (x, cur) ← readFloat cur; .ok ({ file with confidence := x }, cur)
  | .ignore => let (ss, cur) ← readStrings cur; .ok ({ file with ignore := ss }, cur)
  | .length =>
    let (n, cur) ← readWhole "usize" UInt64.size cur
    .ok ({ file with length := UInt64.ofNat n }, cur)
  | .complexity =>
    let (n, cur) ← readWhole "u32" UInt32.size cur
    .ok ({ file with complexity := UInt32.ofNat n }, cur)
  | .prune => let (ss, cur) ← readStrings cur; .ok ({ file with prune := ss }, cur)
  | .quiet => let (b, cur) ← readBool cur; .ok ({ file with quiet := b }, cur)
  | .skip => let (ss, cur) ← readStrings cur; .ok ({ file with skip := ss }, cur)

/-- The fault of a key that stands a second time.  Its position is behind the blanks that follow the
key, and behind the end of the object if that comes next. -/
def duplicateFault (field : Field) (cur : Cursor) : Fault :=
  let cur := cur.skipSpace
  ⟨.duplicateField field.key,
    if cur.rest.head? = some '\x7d' then cur.next.position else cur.position⟩

/-- Whether an object goes on, with the cursor behind the quote of its next key or before its
end. -/
def readKeyStart? (first : Bool) (cur : Cursor) : Except Fault (Bool × Cursor) :=
  let cur := cur.skipSpace
  match cur.rest with
  | [] => cur.fault .endInObject
  | c :: _ =>
    if c = '\x7d' then .ok (false, cur)
    else if first then
      if c = '"' then .ok (true, cur.next) else cur.faultNext .keyNotString
    else if c = ',' then
      let cur := cur.next.skipSpace
      match cur.rest with
      | [] => cur.fault .endInValue
      | '"' :: _ => .ok (true, cur.next)
      | '\x7d' :: _ => cur.faultNext .trailingComma
      | _ => cur.faultNext .keyNotString
    else cur.faultNext .expectedObjectEnd

/-- Reading the members of an object up to its end, with a bound on their number. -/
def readMembers : Nat → Bool → List Field → Settings → Cursor → Except Fault (Settings × Cursor)
  | 0, _, _, _, cur => cur.fault .endInObject
  | steps + 1, first, seen, file, cur => do
    let (more, cur) ← readKeyStart? first cur
    if more then
      let (key, cur) ← readText cur
      match Field.ofKey? key with
      | none =>
        let cur ← readColon cur
        let cur ← skipValue cur
        readMembers steps false seen file cur
      | some field =>
        if seen.contains field then .error (duplicateFault field cur)
        else
          let cur ← readColon cur
          let (file, cur) ← readField file field cur
          readMembers steps false (field :: seen) file cur
    else .ok (file, cur.next)

/-- Reading the elements of a list as the given settings, as far as the list goes. -/
def readElements (first : Bool) (file : Settings) (cur : Cursor) :
    List Field → Except Fault (Settings × Cursor)
  | [] => .ok (file, cur)
  | field :: fields => do
    let (more, cur) ← readElement? first cur
    if more then
      let (file, cur) ← readField file field cur
      readElements false file cur fields
    else readElements first file cur fields

/-- Reading the end of a list whose elements are used up. -/
def readListEnd (cur : Cursor) : Except Fault Cursor :=
  let cur := cur.skipSpace
  match cur.rest with
  | [] => cur.fault .endInList
  | ']' :: _ => .ok cur.next
  | ',' :: _ =>
    let cur := cur.next.skipSpace
    match cur.rest with
    | ']' :: _ => cur.faultNext .trailingComma
    | _ => cur.faultNext .trailingText
  | _ => cur.faultNext .trailingText

/-- Reading settings at a cursor. -/
def readAt (cur : Cursor) : Except Fault (Settings × Cursor) := do
  let cur := cur.skipSpace
  match cur.rest with
  | [] => cur.fault .endInValue
  | '[' :: _ =>
    let (file, cur) ← readElements true {} cur.next Field.all
    .ok (file, ← readListEnd cur)
  | '\x7b' :: _ => readMembers (cur.rest.length + 1) true [] {} cur.next
  | _ => refuse "struct FileConfig" cur

/-- **Reading a settings text.** -/
def read (text : String) : Except Fault Settings := do
  let (file, cur) ← readAt (.ofText text)
  let cur := cur.skipSpace
  if cur.rest.isEmpty then .ok file else cur.faultNext .trailingText

end LintSuite.Settings
