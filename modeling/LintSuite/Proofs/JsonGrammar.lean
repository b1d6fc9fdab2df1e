import LintSuite.Proofs.JsonNumber

/-!
# The grammar of values

The texts of JSON (RFC 8259) as a grammar: a value (`Value`) and the texts that say it (`IsValue`).
The grammar is a relation between values and texts and knows of no reader: white space may stand
around the elements of a list and around the keys and values of an object, a character of a string
may be written plainly, by a short escape or by its code units, and a number keeps its digits as they
are written.

What a string means is a question of its own (`unescape`): code units above the others come in pairs,
and a half without its other half means nothing.

### Design decisions

**Values keep their spelling.**  A `Value` holds what was written and not what it means: the digits of
a number, the parts of a string with their escapes, the members of an object in their order and with
repetitions.  What a value means depends on who asks, a number for one as a fraction and for another as
a whole number, and so meaning is left to functions on values.

**Texts are related to values, not parsed.**  `IsValue` builds texts from values, constructor by
constructor, and is what readers are measured against, in both directions: what the grammar has is
read, and what is read the grammar has.

**White space is part of the grammar**, and stands around elements and members.  No statement about
readers has to say where it may be, and that it does not matter is a consequence.
-/

namespace LintSuite.Json

/-! ### White space -/

/-- White space, which may stand between the parts of a text. -/
def AreSpaces (cs : List Char) : Prop := ∀ c ∈ cs, isSpace c = true

instance (cs : List Char) : Decidable (AreSpaces cs) :=
  decidable_of_iff (cs.all isSpace = true) List.all_eq_true

theorem areSpaces_nil : AreSpaces [] := fun _ hc => nomatch hc

theorem areSpaces_blank : AreSpaces [' '] := by decide

/-! ### Strings -/

/-- **A part of a string**, as it is written: a character, or a code unit of sixteen bits. -/
inductive StringPart where
  /-- A character, written plainly or by a short escape. -/
  | char (c : Char)
  /-- A code unit, written by its number. -/
  | unit (n : Nat)
  deriving DecidableEq, Repr

/-- The short escapes: what stands behind the backslash, and the character that is meant. -/
def shortEscapes : List (Char × Char) :=
  [('"', '"'), ('\\', '\\'), ('/', '/'), ('b', '\x08'), ('f', '\x0c'), ('n', '\n'), ('r', '\r'),
    ('t', '\t')]

/-- A hexadecimal digit, in either case, and its value. -/
def IsHexDigit (c : Char) (value : Nat) : Prop :=
  "0123456789abcdef".toList[value]? = some c ∨ "0123456789ABCDEF".toList[value]? = some c

instance (c : Char) (value : Nat) : Decidable (IsHexDigit c value) :=
  inferInstanceAs (Decidable (_ ∨ _))

/-- The texts of a part of a string. -/
inductive IsPart : StringPart → List Char → Prop where
  /-- A character that needs no escape. -/
  | plain {c : Char} (hcontrol : 0x20 ≤ c.toNat) (hquote : c ≠ '"') (hslash : c ≠ '\\') :
      IsPart (.char c) [c]
  /-- A short escape. -/
  | short {e c : Char} (h : (e, c) ∈ shortEscapes) : IsPart (.char c) ['\\', e]
  /-- Four digits. -/
  | unit {a b c d : Char} {va vb vc vd : Nat} (ha : IsHexDigit a va) (hb : IsHexDigit b vb)
      (hc : IsHexDigit c vc) (hd : IsHexDigit d vd) :
      IsPart (.unit (((va * 16 + vb) * 16 + vc) * 16 + vd)) ['\\', 'u', a, b, c, d]

/-- **The texts of a string**, between its quotes. -/
inductive AreParts : List StringPart → List Char → Prop where
  | nil : AreParts [] []
  | cons {part : StringPart} {parts : List StringPart} {text rest : List Char}
      (hpart : IsPart part text) (hparts : AreParts parts rest) :
      AreParts (part :: parts) (text ++ rest)

/-- Characters that need no escape are written as they are. -/
theorem areParts_map_char {cs : List Char}
    (h : ∀ c ∈ cs, 0x20 ≤ c.toNat ∧ c ≠ '"' ∧ c ≠ '\\') : AreParts (cs.map .char) cs := by
  induction cs with
  | nil => exact .nil
  | cons c cs ih =>
      obtain ⟨hcontrol, hquote, hslash⟩ := h c List.mem_cons_self
      exact .cons (.plain hcontrol hquote hslash) (ih fun d hd => h d (.tail _ hd))

/-- What the parts of a string mean, if the first half of a pair may wait for the second one. -/
def unescapeFrom : Option Nat → List StringPart → Option (List Char)
  | none, [] => some []
  | none, .char c :: parts => (unescapeFrom none parts).map (c :: ·)
  | none, .unit n :: parts =>
    if isLowSurrogate n then none
    else if isHighSurrogate n then unescapeFrom (some n) parts
    else (unescapeFrom none parts).map (Char.ofNat n :: ·)
  | some high, .unit n :: parts =>
    if isLowSurrogate n then (unescapeFrom none parts).map (pairChar high n :: ·) else none
  | some _, _ => none

/-- **The text that a string means**, unless half of a pair stands alone. -/
def unescape (parts : List StringPart) : Option String :=
  (unescapeFrom none parts).map String.ofList

/-! ### Numbers -/

/-- Digits, at least one. -/
def AreDigits (cs : List Char) : Prop := cs ≠ [] ∧ cs.all Char.isDigit = true

instance (cs : List Char) : Decidable (AreDigits cs) := inferInstanceAs (Decidable (_ ∧ _))

/-- **A number**, as it is written. -/
structure Numeral where
  /-- Whether a minus stands in front of it. -/
  negative : Bool
  /-- The digits in front of the point. -/
  whole : List Char
  /-- The digits behind the point, if there is one. -/
  places : Option (List Char)
  /-- The exponent, if there is one: whether it is negative, and its digits. -/
  exponent : Option (Bool × List Char)
  whole_digits : AreDigits whole
  /-- A zero in front of other digits is not written. -/
  whole_zero : whole.head? = some '0' → whole = ['0']
  places_digits : ∀ ds ∈ places, AreDigits ds
  exponent_digits : ∀ e ∈ exponent, AreDigits e.2

/-- What stands in front of the digits of a number. -/
def signText (negative : Bool) : List Char := if negative then ['-'] else []

/-- What stands behind the first digits of a number. -/
def placesText : Option (List Char) → List Char
  | none => []
  | some ds => '.' :: ds

/-- The texts of an exponent: the mark in either case, and a plus may be left out. -/
inductive IsExponent : Option (Bool × List Char) → List Char → Prop where
  | absent : IsExponent none []
  | bare {mark : Char} {ds : List Char} (hmark : mark = 'e' ∨ mark = 'E') :
      IsExponent (some (false, ds)) (mark :: ds)
  | plus {mark : Char} {ds : List Char} (hmark : mark = 'e' ∨ mark = 'E') :
      IsExponent (some (false, ds)) (mark :: '+' :: ds)
  | minus {mark : Char} {ds : List Char} (hmark : mark = 'e' ∨ mark = 'E') :
      IsExponent (some (true, ds)) (mark :: '-' :: ds)

/-- **The texts of a number.** -/
def IsNumeral (n : Numeral) (text : List Char) : Prop :=
  ∃ exponent, IsExponent n.exponent exponent ∧
    text = signText n.negative ++ (n.whole ++ (placesText n.places ++ exponent))

/-! ### Values -/

/-- **A value.** -/
inductive Value where
  /-- The word for nothing. -/
  | null
  /-- A truth value. -/
  | truth (b : Bool)
  /-- A number. -/
  | number (n : Numeral)
  /-- A string. -/
  | string (parts : List StringPart)
  /-- A list of values. -/
  | list (elements : List Value)
  /-- An object: values under keys. -/
  | object (members : List (List StringPart × Value))

/-- The members of an object: a key and a value each. -/
abbrev Members := List (List StringPart × Value)

mutual

/-- **The texts of a value.** -/
inductive IsValue : Value → List Char → Prop where
  | null : IsValue .null ['n', 'u', 'l', 'l']
  | yes : IsValue (.truth true) ['t', 'r', 'u', 'e']
  | no : IsValue (.truth false) ['f', 'a', 'l', 's', 'e']
  | number {n : Numeral} {text : List Char} (h : IsNumeral n text) : IsValue (.number n) text
  | string {parts : List StringPart} {text : List Char} (h : AreParts parts text) :
      IsValue (.string parts) ('"' :: (text ++ ['"']))
  | emptyList {spaces : List Char} (h : AreSpaces spaces) :
      IsValue (.list []) ('[' :: (spaces ++ [']']))
  | list {elements : List Value} {text : List Char} (h : AreElements elements text) :
      IsValue (.list elements) ('[' :: (text ++ [']']))
  | emptyObject {spaces : List Char} (h : AreSpaces spaces) :
      IsValue (.object []) ('\x7b' :: (spaces ++ ['\x7d']))
  | object {members : Members} {text : List Char} (h : AreMembers members text) :
      IsValue (.object members) ('\x7b' :: (text ++ ['\x7d']))

/-- The texts of a value with white space around it. -/
inductive IsElement : Value → List Char → Prop where
  | spaced {value : Value} {before text behind : List Char} (hbefore : AreSpaces before)
      (hvalue : IsValue value text) (hbehind : AreSpaces behind) :
      IsElement value (before ++ (text ++ behind))

/-- The texts of the elements of a list, which has one. -/
inductive AreElements : List Value → List Char → Prop where
  | last {value : Value} {text : List Char} (h : IsElement value text) : AreElements [value] text
  | more {value : Value} {values : List Value} {text rest : List Char}
      (hfirst : IsElement value text) (hrest : AreElements values rest) :
      AreElements (value :: values) (text ++ ',' :: rest)

/-- The texts of a member of an object, with white space around its key and its value. -/
inductive IsMember : List StringPart × Value → List Char → Prop where
  | colon {key : List StringPart} {value : Value} {before name behind text : List Char}
      (hbefore : AreSpaces before) (hkey : AreParts key name) (hbehind : AreSpaces behind)
      (hvalue : IsElement value text) :
      IsMember (key, value) (before ++ '"' :: (name ++ '"' :: (behind ++ ':' :: text)))

/-- The texts of the members of an object, which has one. -/
inductive AreMembers : Members → List Char → Prop where
  | last {member : List StringPart × Value} {text : List Char} (h : IsMember member text) :
      AreMembers [member] text
  | more {member : List StringPart × Value} {members : Members} {text rest : List Char}
      (hfirst : IsMember member text) (hrest : AreMembers members rest) :
      AreMembers (member :: members) (text ++ ',' :: rest)

end

/-- **The texts that are one object**, with white space around it. -/
def IsObjectText (members : Members) (text : List Char) : Prop :=
  IsElement (.object members) text

/-! ### First characters -/

/-- The first character of a value. -/
def Value.StartsWith : Value → Char → Prop
  | .null, c => c = 'n'
  | .truth b, c => c = if b then 't' else 'f'
  | .number _, c => c = '-' ∨ c.isDigit = true
  | .string _, c => c = '"'
  | .list _, c => c = '['
  | .object _, c => c = '\x7b'

theorem IsNumeral.start {n : Numeral} {text : List Char} (h : IsNumeral n text) :
    ∃ c rest, text = c :: rest ∧ (c = '-' ∨ c.isDigit = true) := by
  obtain ⟨exponent, -, rfl⟩ := h
  obtain ⟨d, ds, hwhole⟩ := List.exists_cons_of_ne_nil n.whole_digits.1
  have hd : d.isDigit = true := by
    have hall := n.whole_digits.2
    rw [hwhole, List.all_cons, Bool.and_eq_true] at hall
    exact hall.1
  cases hsign : n.negative with
  | true => exact ⟨'-', _, rfl, .inl rfl⟩
  | false =>
      rw [hwhole]
      exact ⟨d, _, rfl, .inr hd⟩

/-- **A value starts with a character of its kind.** -/
theorem IsValue.start {value : Value} {text : List Char} (h : IsValue value text) :
    ∃ c rest, text = c :: rest ∧ value.StartsWith c := by
  cases h with
  | number hn => exact hn.start
  | null | yes | no | string | emptyList | list | emptyObject | object => exact ⟨_, _, rfl, rfl⟩

/-- No value starts with white space. -/
theorem Value.StartsWith.isSpace_eq_false {value : Value} {c : Char} (h : value.StartsWith c) :
    isSpace c = false := by
  cases value with
  | truth b => cases b <;> (subst h; rfl)
  | number n =>
      obtain rfl | hdigit := h
      · rfl
      · exact Settings.isSpace_eq_false_of_isDigit hdigit
  | null | string | list | object =>
      subst h
      rfl

/-! ### Lengths -/

/-- The commas of a list show how many elements it has. -/
theorem AreElements.length_le {values : List Value} {text : List Char}
    (h : AreElements values text) : values.length ≤ text.length + 1 := by
  induction values generalizing text with
  | nil => exact Nat.zero_le _
  | cons value values ih =>
      cases h with
      | last => simp
      | @more _ _ text others _ hothers =>
          have hle := ih hothers
          simp only [List.length_cons, List.length_append]
          omega

/-- The commas of an object show how many members it has. -/
theorem AreMembers.length_le {members : Members} {text : List Char}
    (h : AreMembers members text) : members.length ≤ text.length + 1 := by
  induction members generalizing text with
  | nil => exact Nat.zero_le _
  | cons member members ih =>
      cases h with
      | last => simp
      | @more _ _ text others _ hothers =>
          have hle := ih hothers
          simp only [List.length_cons, List.length_append]
          omega

end LintSuite.Json
