import LintSuite.Text.CaseTable
import LintSuite.Text.Ranges

/-!
# Small letters

The small form of a text is found letter by letter, with one exception: a capital sigma becomes a
final sigma when it ends a word, that is when a letter with case comes before it and none comes
after it, looking past the characters that do not break a word.

The comma breaks every word (`stops_comma`), so words joined by commas can be lowered one by one.
-/

namespace LintSuite.Text

/-- Whether a letter has case. -/
def isCased (c : Char) : Bool :=
  within CaseTable.cased c.toNat

/-- Whether a character is looked past when case is looked for. -/
def isCaseIgnorable (c : Char) : Bool :=
  within CaseTable.ignorable c.toNat

/-- The small form of one letter, away from any other. -/
def smallForm (c : Char) : List Char :=
  if c.toNat < 0x80 then [c.toLower]
  else if c == 'İ' then ['i', '\u0307']
  else match CaseTable.small.find? fun r =>
      r.first ≤ c.toNat && c.toNat ≤ r.last && (c.toNat - r.first) % r.stride == 0 with
    | some r => [Char.ofNat ((c.toNat : Int) + r.shift).toNat]
    | none => [c]

/-- Whether the nearest character that is not looked past has case. -/
def meetsCased (cs : List Char) : Bool :=
  match cs.dropWhile isCaseIgnorable with
  | c :: _ => isCased c
  | [] => false

/-- The small form of a text, of which the reversed front is already known. -/
def lowerAfter (before : List Char) : List Char → List Char
  | [] => []
  | c :: rest =>
    (if c == 'Σ' then
      (if meetsCased before && !meetsCased rest then ['ς'] else ['σ'])
    else smallForm c) ++ lowerAfter (c :: before) rest

/-- **Small letters.**  The small form of a text. -/
def lower (s : String) : String :=
  String.ofList (lowerAfter [] s.toList)

/-- A comma neither has case nor is looked past: no sigma sees beyond one. -/
theorem stops_comma (rest : List Char) : meetsCased (',' :: rest) = false := by
  have h : isCaseIgnorable ',' = false := by decide +kernel
  have h' : isCased ',' = false := by decide +kernel
  simp [meetsCased, h, h']

end LintSuite.Text
