import LintSuite.Host.Tree
import LintSuite.Path

/-!
# Texts of octets

To a process every text is a row of octets, whatever they stand for elsewhere: a length counts
octets, and a pattern that fits any character fits any octet.  A *text of octets* has a character
for each octet, the one with its number.

Texts are packed into octets where a command starts (`packed`).  From there on nothing is lost, however
ill-formed the octets are (`ofString_toText`); names and paths are octets anyway.

## Main definitions

* `Octets.ofString`, `Octets.toText` — between a text of octets and its octets
* `Octets.packed` — from a text to the text of its octets
* `Octets.path`, `Octets.ofPath` — between a text of octets and the path that it spells
-/

namespace LintSuite.Text.Octets

/-- Each octet as a character of its own. -/
def chars (bytes : List UInt8) : List Char := bytes.map fun b => Char.ofNat b.toNat

/-- The octets of characters that stand for one each. -/
def ofChars (cs : List Char) : List UInt8 := cs.map fun c => UInt8.ofNat c.toNat

/-- **The octets of a text of octets.** -/
def ofString (text : String) : List UInt8 := ofChars text.toList

/-- **The text of some octets.** -/
def toText (bytes : List UInt8) : String := String.ofList (chars bytes)

/-- **A text, packed** into octets. -/
def packed (text : String) : String := toText (Utf8.encode text.toList)

/-- The path that a text of octets spells. -/
def path (text : String) : Path := ⟨ofString text⟩

/-- The spelling of a path as a text of octets. -/
def ofPath (p : Path) : String := toText p.bytes

/-- The entries of a directory with texts of octets for their names. -/
def named (entries : Host.Entries) : List (String × Host.Node) :=
  entries.toList.map fun e => (toText e.1, e.2)

/-- The number of the character of an octet. -/
theorem toNat_char (b : UInt8) : (Char.ofNat b.toNat).toNat = b.toNat := by
  have small : b.toNat < 256 := b.toNat_lt
  have valid : b.toNat.isValidChar := Or.inl (by omega)
  rw [Char.ofNat, dif_pos valid]
  rfl

/-- The octets of the characters of some octets are these. -/
@[simp] theorem ofChars_chars (bytes : List UInt8) : ofChars (chars bytes) = bytes := by
  induction bytes with
  | nil => rfl
  | cons b rest ih => simpa [ofChars, chars, toNat_char] using ih

/-- Nothing of some octets is lost in their text. -/
@[simp] theorem ofString_toText (bytes : List UInt8) : ofString (toText bytes) = bytes := by
  simp [ofString, toText]

/-- The pieces of some octets that end with a mark each, without it; the last one may lack it. -/
def records (mark : UInt8) (bytes : List UInt8) : List (List UInt8) :=
  bytes.foldr (fun (b : UInt8) (pieces : List (List UInt8)) =>
    if b = mark then [] :: pieces
    else match pieces with
      | [] => [[b]]
      | piece :: rest => (b :: piece) :: rest) []

/-- The lines of some octets, without their line feeds. -/
def lines (bytes : List UInt8) : List (List UInt8) := records 10 bytes

/-- Pieces with a mark behind each. -/
def ended (mark : UInt8) (pieces : List (List UInt8)) : List UInt8 :=
  pieces.flatMap (· ++ [mark])

/-- Lines with a line feed behind each. -/
def unlines (lines : List (List UInt8)) : List UInt8 := ended 10 lines

/-- Octets without a line feed at their end. -/
def chomped (bytes : List UInt8) : List UInt8 :=
  if bytes.getLast? = some 10 then bytes.dropLast else bytes

/-- Pieces between marks, one more than there are marks. -/
def split (mark : UInt8) (bytes : List UInt8) : List (List UInt8) :=
  bytes.foldr (fun (b : UInt8) (pieces : List (List UInt8)) =>
    if b = mark then [] :: pieces
    else match pieces with
      | [] => [[b]]
      | piece :: rest => (b :: piece) :: rest) [[]]

/-- Whether an octet is a blank. -/
def isBlank (b : UInt8) : Bool := b == 32 || b == 9

/-- Whether an octet is a blank or ends a line or a page. -/
def isSpace (b : UInt8) : Bool := b == 32 || (9 ≤ b && b ≤ 13)

/-- A small letter for a capital one. -/
def lower (b : UInt8) : UInt8 := if 65 ≤ b && b ≤ 90 then b + 32 else b

/-- The order of octets, the first difference deciding. -/
def le : List UInt8 → List UInt8 → Bool
  | [], _ => true
  | _ :: _, [] => false
  | a :: s, b :: t => if a = b then le s t else a < b

end LintSuite.Text.Octets
