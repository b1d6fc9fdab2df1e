import LintSuite.Simulator.Process.Printf
import LintSuite.Simulator.Text.Numeral

/-!
# Arithmetic of the shell

An arithmetic text is read into an expression and calculated on words of 64 bits that wrap around.
An expression may set variables; a variable that is not set counts as zero.

Binary operators bind by their level.  `readLevel n` reads operators of level `n` and tighter ones,
grouping from the left.
-/

namespace LintSuite.Shell

open Text

/-- An operator between two operands. -/
inductive Operator where
  | mul | div | mod | add | sub | shiftLeft | shiftRight
  | lt | le | gt | ge | eq | ne | bitAnd | bitXor | bitOr | both | either
  deriving DecidableEq, Repr

/-- An expression. -/
inductive Expr where
  /-- A number. -/
  | number (n : Int)
  /-- The value of a variable. -/
  | variable (name : String)
  /-- The negative. -/
  | negative (e : Expr)
  /-- One for zero, else zero. -/
  | isZero (e : Expr)
  /-- Every bit turned over. -/
  | complement (e : Expr)
  /-- An operation. -/
  | binary (op : Operator) (a b : Expr)
  /-- A choice. -/
  | choice (test yes no : Expr)
  /-- Setting a variable, to an operation on its value if an operator is given. -/
  | assign (name : String) (op : Option Operator) (e : Expr)
  deriving Repr

/-- Why an arithmetic text has no value. -/
inductive ArithmeticFault where
  /-- An operand lacks. -/
  | primary
  /-- A bracket lacks. -/
  | bracket
  /-- The text goes on behind the expression. -/
  | endOfText
  /-- A choice lacks its second part. -/
  | colon
  /-- Division by zero. -/
  | zeroDivisor
  /-- The value of a variable is no number. -/
  | notNumber (value : String)
  deriving DecidableEq, Repr

/-- The text of the reason. -/
def ArithmeticFault.message (source : String) : ArithmeticFault → String
  | .primary => "arithmetic expression: expecting primary: \"" ++ source ++ "\""
  | .bracket => "arithmetic expression: expecting ')': \"" ++ source ++ "\""
  | .endOfText => "arithmetic expression: expecting EOF: \"" ++ source ++ "\""
  | .colon => "arithmetic expression: expecting ':': \"" ++ source ++ "\""
  | .zeroDivisor => "arithmetic expression: division by zero: \"" ++ source ++ "\""
  | .notNumber value => "Illegal number: " ++ value

namespace Expr

/-! ### Reading -/

/-- The operators with their spellings and levels, longer spellings before those they begin with. -/
def operators : List (List Char × Operator × Nat) :=
  [(['<', '<'], .shiftLeft, 8), (['>', '>'], .shiftRight, 8), (['<', '='], .le, 7),
    (['>', '='], .ge, 7), (['=', '='], .eq, 6), (['!', '='], .ne, 6), (['&', '&'], .both, 2),
    (['|', '|'], .either, 1), (['*'], .mul, 10), (['/'], .div, 10), (['%'], .mod, 10),
    (['+'], .add, 9), (['-'], .sub, 9), (['<'], .lt, 7), (['>'], .gt, 7), (['&'], .bitAnd, 5),
    (['^'], .bitXor, 4), (['|'], .bitOr, 3)]

/-- Operators that may stand in front of the sign of an assignment. -/
def assigners : List (List Char × Operator) :=
  [(['<', '<'], .shiftLeft), (['>', '>'], .shiftRight), (['*'], .mul), (['/'], .div),
    (['%'], .mod), (['+'], .add), (['-'], .sub), (['&'], .bitAnd), (['^'], .bitXor),
    (['|'], .bitOr)]

/-- The text behind blanks. -/
def skip (cs : List Char) : List Char :=
  cs.dropWhile fun c => c == ' ' || c == '\t' || c == '\n'

/-- The operator at the front of a text, its level, and what follows it. -/
def operator? (cs : List Char) : Option (Operator × Nat × List Char) :=
  (operators.find? (·.1.isPrefixOf cs)).map fun (spelling, op, level) =>
    (op, level, cs.drop spelling.length)

/-- The sign of an assignment at the front of a text, and what follows it. -/
def assigner? (cs : List Char) : Option (Option Operator × List Char) :=
  match cs with
  | '=' :: '=' :: _ => none
  | '=' :: rest => some (none, rest)
  | _ =>
    match assigners.find? fun (spelling, _) => (spelling ++ ['=']).isPrefixOf cs with
    | some (spelling, op) => some (some op, cs.drop (spelling.length + 1))
    | none => none

mutual

/-- Reading an operand. -/
def readOperand : Nat → List Char → Except ArithmeticFault (Expr × List Char)
  | 0, _ => .error .primary
  | steps + 1, cs => do
    match skip cs with
    | '-' :: rest =>
      let (e, rest) ← readOperand steps rest
      .ok (.negative e, rest)
    | '+' :: rest => readOperand steps rest
    | '!' :: rest =>
      let (e, rest) ← readOperand steps rest
      .ok (.isZero e, rest)
    | '~' :: rest =>
      let (e, rest) ← readOperand steps rest
      .ok (.complement e, rest)
    | '(' :: rest =>
      let (e, rest) ← readWhole steps rest
      match skip rest with
      | ')' :: rest => .ok (e, rest)
      | _ => .error .bracket
    | c :: rest =>
      let cs := c :: rest
      if c.isDigit then
        let (n, rest) := Printf.leadingNatural cs
        .ok (.number (min n 0x7FFFFFFFFFFFFFFF), rest)
      else if c.isAlpha || c == '_' then
        let name := String.ofList (cs.takeWhile fun d => d.isAlphanum || d == '_')
        let rest := cs.dropWhile fun d => d.isAlphanum || d == '_'
        match assigner? (skip rest) with
        | some (op, rest) =>
          let (e, rest) ← readWhole steps rest
          .ok (.assign name op e, rest)
        | none => .ok (.variable name, rest)
      else .error .primary
    | [] => .error .primary

/-- Reading the operators behind an operand that bind at least as tightly as a level. -/
def readBehind : Nat → Nat → Expr → List Char →
    Except ArithmeticFault (Expr × List Char)
  | 0, _, e, cs => .ok (e, cs)
  | steps + 1, level, e, cs => do
    match operator? (skip cs) with
    | some (op, l, rest) =>
      if l < level then .ok (e, cs)
      else
        let (f, rest) ← readLevel steps (l + 1) rest
        readBehind steps level (.binary op e f) rest
    | none => .ok (e, cs)

/-- Reading operators of a level and tighter ones. -/
def readLevel : Nat → Nat → List Char → Except ArithmeticFault (Expr × List Char)
  | 0, _, _ => .error .primary
  | steps + 1, level, cs => do
    let (e, rest) ← readOperand steps cs
    readBehind steps level e rest

/-- Reading an expression with its choices. -/
def readWhole : Nat → List Char → Except ArithmeticFault (Expr × List Char)
  | 0, _ => .error .primary
  | steps + 1, cs => do
    let (test, rest) ← readLevel steps 0 cs
    match skip rest with
    | '?' :: rest =>
      let (yes, rest) ← readWhole steps rest
      match skip rest with
      | ':' :: rest =>
        let (no, rest) ← readWhole steps rest
        .ok (.choice test yes no, rest)
      | _ => .error .colon
    | _ => .ok (test, rest)

end

/-- **Reading an arithmetic text.**  An empty text is zero. -/
def read (cs : List Char) : Except ArithmeticFault Expr := do
  if (skip cs).isEmpty then .ok (.number 0)
  else
    let (e, rest) ← readWhole (4 * cs.length + 8) cs
    if (skip rest).isEmpty then .ok e else .error .endOfText

/-! ### Calculating -/

/-- The word of 64 bits that is congruent to a number. -/
def wrap (n : Int) : Int := Int.bmod n UInt64.size

/-- A truth value as a number. -/
def truth (b : Bool) : Int := if b then 1 else 0

/-- The bits of a word as a natural number. -/
def bits (n : Int) : Nat := (n % UInt64.size).toNat

/-- The values of variables that were set, the latest first, before those from outside. -/
structure Variables where
  /-- The variables that were set. -/
  changed : List (String × Int) := []
  /-- The variables from outside. -/
  outside : String → Option String

/-- The word that a text without blanks around it spells, which counts as zero if it is empty. -/
def numberOf? (cs : List Char) : Option Int :=
  let (sign, digits) : Int × List Char := match cs with
    | '-' :: rest => (-1, rest)
    | '+' :: rest => (1, rest)
    | _ => (1, cs)
  let (n, rest) := Printf.leadingNatural digits
  if cs.isEmpty then some 0
  else if digits.isEmpty || !rest.isEmpty then none
  else if wrap (sign * n) = sign * n then some (sign * n) else none

/-- The value of a variable. -/
def Variables.value (vs : Variables) (name : String) : Except ArithmeticFault Int :=
  match vs.changed.find? (·.1 == name) with
  | some (_, n) => .ok n
  | none =>
    match vs.outside name with
    | none => .ok 0
    | some text =>
      match numberOf? (Numeral.trimmed text.toList) with
      | some n => .ok n
      | none => .error (.notNumber text)

/-- An operation on two words. -/
def operate (op : Operator) (a b : Int) : Except ArithmeticFault Int :=
  match op with
  | .mul => .ok (wrap (a * b))
  | .div => if b = 0 then .error .zeroDivisor else .ok (wrap (Int.tdiv a b))
  | .mod => if b = 0 then .error .zeroDivisor else .ok (wrap (Int.tmod a b))
  | .add => .ok (wrap (a + b))
  | .sub => .ok (wrap (a - b))
  | .shiftLeft => .ok (wrap (a * Decimal.twoTo (bits b % 64)))
  | .shiftRight => .ok (Int.fdiv a (Decimal.twoTo (bits b % 64)))
  | .lt => .ok (truth (a < b))
  | .le => .ok (truth (a ≤ b))
  | .gt => .ok (truth (a > b))
  | .ge => .ok (truth (a ≥ b))
  | .eq => .ok (truth (a = b))
  | .ne => .ok (truth (a ≠ b))
  | .bitAnd => .ok (wrap (bits a &&& bits b : Nat))
  | .bitXor => .ok (wrap (bits a ^^^ bits b : Nat))
  | .bitOr => .ok (wrap (bits a ||| bits b : Nat))
  | .both => .ok (truth (a ≠ 0 ∧ b ≠ 0))
  | .either => .ok (truth (a ≠ 0 ∨ b ≠ 0))

/-- **The value of an expression**, and the variables after it.  What a choice, or a logical
operation whose outcome is already known, does not need is not calculated. -/
def value (vs : Variables) : Expr → Except ArithmeticFault (Int × Variables)
  | .number n => .ok (wrap n, vs)
  | .variable name => do .ok (← vs.value name, vs)
  | .negative e => do
    let (n, vs) ← e.value vs
    .ok (wrap (-n), vs)
  | .isZero e => do
    let (n, vs) ← e.value vs
    .ok (truth (n = 0), vs)
  | .complement e => do
    let (n, vs) ← e.value vs
    .ok (wrap (-n - 1), vs)
  | .binary op a b => do
    let (m, vs) ← a.value vs
    if op = .both ∧ m = 0 then .ok (0, vs)
    else if op = .either ∧ m ≠ 0 then .ok (1, vs)
    else
      let (n, vs) ← b.value vs
      .ok (← operate op m n, vs)
  | .choice test yes no => do
    let (n, vs) ← test.value vs
    if n ≠ 0 then yes.value vs else no.value vs
  | .assign name op e => do
    let (n, vs) ← e.value vs
    let n ← match op with
      | none => Except.ok n
      | some op => do operate op (← vs.value name) n
    .ok (n, { vs with changed := (name, n) :: vs.changed })

end Expr

end LintSuite.Shell
