/-!
# UTF-8, strict and forgiving

Bytes are read by a machine that takes one byte at a time (`step`).  Between two characters it is
idle; inside one it remembers how many bytes are still owed and which range the next of them must
come from.  The ranges are those of the Unicode standard's table of well-formed byte sequences, so
surrogates, overlong forms and values past the last code point are refused at their second byte.

A byte that cannot continue the character under way ends that character as *ill-formed* and is then
read afresh.  One ill-formed piece is therefore as long as it can be while still starting some
character: the maximal subpart of the standard.  `decodeLossy` puts one replacement character for
each piece, `decode?` refuses a text that has one.

Every byte below `0x80` is read afresh whatever came before (`step_ascii`), so the machine can be
restarted at a line end without changing what it reads.
-/

namespace LintSuite.Text.Utf8

/-- The bytes of a text. -/
def encode (cs : List Char) : List UInt8 :=
  cs.flatMap String.utf8EncodeChar

/-- A character under way: the bytes still owed, the range of the next one, and the bits so far. -/
structure Pending where
  /-- Bytes still owed, at least one. -/
  owed : Nat
  /-- The least byte that may come next. -/
  low : Nat
  /-- The greatest byte that may come next. -/
  high : Nat
  /-- The bits read so far. -/
  value : Nat
  deriving DecidableEq, Repr

/-- A piece of a byte string: a character, or `none` for a piece that is no character. -/
abbrev Piece := Option Char

/-- What a byte does between two characters. -/
def start (b : UInt8) : List Piece × Option Pending :=
  let n := b.toNat
  if n < 0x80 then ([some (Char.ofNat n)], none)
  else if n < 0xC2 then ([none], none)
  else if n < 0xE0 then ([], some ⟨1, 0x80, 0xBF, n - 0xC0⟩)
  else if n == 0xE0 then ([], some ⟨2, 0xA0, 0xBF, 0⟩)
  else if n == 0xED then ([], some ⟨2, 0x80, 0x9F, 0xD⟩)
  else if n < 0xF0 then ([], some ⟨2, 0x80, 0xBF, n - 0xE0⟩)
  else if n == 0xF0 then ([], some ⟨3, 0x90, 0xBF, 0⟩)
  else if n < 0xF4 then ([], some ⟨3, 0x80, 0xBF, n - 0xF0⟩)
  else if n == 0xF4 then ([], some ⟨3, 0x80, 0x8F, 4⟩)
  else ([none], none)

/-- **One byte.**  The pieces it completes, and the character under way after it. -/
def step : Option Pending → UInt8 → List Piece × Option Pending
  | none, b => start b
  | some p, b =>
    let n := b.toNat
    if p.low ≤ n ∧ n ≤ p.high then
      let value := p.value * 64 + (n - 0x80)
      if p.owed ≤ 1 then ([some (Char.ofNat value)], none)
      else ([], some ⟨p.owed - 1, 0x80, 0xBF, value⟩)
    else (none :: (start b).1, (start b).2)

/-- What the end of the bytes leaves: a character under way is ill-formed. -/
def finish : Option Pending → List Piece
  | none => []
  | some _ => [none]

/-- The pieces of a byte string, read from a given state. -/
def piecesFrom (state : Option Pending) : List UInt8 → List Piece
  | [] => finish state
  | b :: bytes => (step state b).1 ++ piecesFrom (step state b).2 bytes

/-- The pieces of a byte string. -/
def pieces (bytes : List UInt8) : List Piece :=
  piecesFrom none bytes

/-- The character that stands for an ill-formed piece. -/
def replacement : Char := '\uFFFD'

/-- **Forgiving reading.**  Each ill-formed piece becomes one replacement character. -/
def decodeLossy (bytes : List UInt8) : List Char :=
  (pieces bytes).map (·.getD replacement)

/-- **Strict reading.**  A byte string with an ill-formed piece is no text. -/
def decode? (bytes : List UInt8) : Option (List Char) :=
  (pieces bytes).mapM id

@[simp] theorem piecesFrom_nil (state : Option Pending) : piecesFrom state [] = finish state := rfl

@[simp] theorem piecesFrom_cons (state : Option Pending) (b : UInt8) (bytes : List UInt8) :
    piecesFrom state (b :: bytes) = (step state b).1 ++ piecesFrom (step state b).2 bytes := rfl

/-- A byte below `0x80` is a character of its own, between characters. -/
theorem start_ascii {b : UInt8} (h : b.toNat < 0x80) :
    start b = ([some (Char.ofNat b.toNat)], none) := by
  simp [start, h]

end LintSuite.Text.Utf8
